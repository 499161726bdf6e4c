import Mathlib.Tactic.SplitIfs
import Versioning.Text.Bytes

/-!
# The order of bytes

Texts are ordered character by character. This is also the order of the bytes that they are
written with (`Text.compare_eq_lt_iff`): in the first place where the bytes of two characters
differ, the smaller character has the smaller byte, whatever comes behind the two
(`Text.utf8EncodeChar_append_lt`).
-/

namespace Versioning.Text

theorem bytes_eq_flatMap (text : String) :
    bytes text = text.toList.flatMap String.utf8EncodeChar := by
  have h : text.toByteArray = text.toList.utf8Encode := String.utf8Encode_toList.symm
  rw [bytes, String.toUTF8_eq_toByteArray, h, List.utf8Encode, List.data_toByteArray]

/-- A character is written before a larger one, with anything behind them. -/
theorem utf8EncodeChar_append_lt {a b : Char} (h : a < b) (u v : List UInt8) :
    String.utf8EncodeChar a ++ u < String.utf8EncodeChar b ++ v := by
  have hlt : a.val.toNat < b.val.toNat := UInt32.lt_iff_toNat_lt.1 h
  have hb : b.val.toNat < 0x110000 := by
    rcases b.valid with hvalid | ⟨-, hvalid⟩ <;> omega
  simp only [String.utf8EncodeChar]
  generalize a.val.toNat = m at hlt
  generalize b.val.toNat = n at hlt hb
  -- The larger number is larger in its first digit that is different, to the base 64.
  have hdigit (m n : Nat) : m < n ↔ m / 64 < n / 64 ∨ m / 64 = n / 64 ∧ m % 64 < n % 64 := by
    omega
  have hdigits := hlt
  rw [hdigit, hdigit (m / 64), hdigit (m / 64 / 64)] at hdigits
  simp only [Nat.div_div_eq_div_mul, Nat.reduceMul] at hdigits
  -- A byte holds its digit with the mark that it has in front.
  have hfirst (k : Nat) (hk : k < 0x110000) : (k / 262144 % 8 + 240) % 2 ^ 8 = k / 262144 + 240 := by
    omega
  have hrest (k : Nat) : (k % 64 + 128) % 2 ^ 8 = k % 64 + 128 := by omega
  split_ifs <;>
    simp only [List.cons_append, List.nil_append, List.cons_lt_cons_iff, UInt8.lt_iff_toNat_lt,
      ← UInt8.toNat_inj, UInt8.toNat_ofNat', hfirst m (Nat.lt_trans hlt hb), hfirst n hb, hrest] <;>
    omega

theorem append_lt_append_left {u v : List UInt8} (h : u < v) (l : List UInt8) :
    l ++ u < l ++ v := by
  induction l with
  | nil => exact h
  | cons b l ih => exact List.cons_lt_cons_iff.2 (.inr ⟨rfl, ih⟩)

theorem flatMap_utf8EncodeChar_lt {l l' : List Char} (h : l < l') :
    l.flatMap String.utf8EncodeChar < l'.flatMap String.utf8EncodeChar := by
  induction l generalizing l' with
  | nil =>
    cases l' with
    | nil => exact absurd h (List.not_lt_nil _)
    | cons c l' =>
      rw [List.flatMap_nil, List.flatMap_cons]
      cases hc : String.utf8EncodeChar c with
      | nil => exact absurd hc String.utf8EncodeChar_ne_nil
      | cons b rest => exact List.nil_lt_cons _ _
  | cons a l ih =>
    cases l' with
    | nil => exact absurd h (List.not_lt_nil _)
    | cons c l' =>
      rw [List.flatMap_cons, List.flatMap_cons]
      rcases List.cons_lt_cons_iff.1 h with hlt | ⟨rfl, hlt⟩
      · exact utf8EncodeChar_append_lt hlt _ _
      · exact append_lt_append_left (ih hlt) _

/-- A text comes before another one exactly if its bytes do. -/
theorem compare_eq_lt_iff {s t : String} : compare s t = .lt ↔ bytes s < bytes t := by
  have hlt {s t : String} (h : compare s t = .lt) : bytes s < bytes t := by
    rw [bytes_eq_flatMap, bytes_eq_flatMap]
    exact flatMap_utf8EncodeChar_lt (String.lt_iff.1 (compareOfLessAndEq_eq_lt.1 h))
  refine ⟨hlt, fun h => ?_⟩
  -- The other two results of the comparison would put the bytes in another order.
  cases hst : compare s t with
  | lt => rfl
  | eq => exact absurd (Std.LawfulEqCmp.eq_of_compare hst ▸ h) (List.lt_irrefl _)
  | gt => exact absurd (hlt (Std.OrientedCmp.gt_iff_lt.1 hst)) (List.lt_asymm h)

end Versioning.Text
