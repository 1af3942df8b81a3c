import Mathlib.Data.List.Basic
import Mathlib.Data.String.Basic

/-!
# The order of texts

Texts are compared character by character. UTF-8 keeps this order: it is also that of the bytes in
which the texts are encoded.
-/

namespace RobotDescription.Text

/-- The bytes in which a text is encoded. -/
def bytes (text : String) : List UInt8 :=
  text.toUTF8.data.toList

theorem bytes_eq (text : String) : bytes text = text.toList.flatMap String.utf8EncodeChar := by
  conv_lhs => rw [← String.ofList_toList (s := text)]
  exact List.toList_data_toByteArray

theorem toNat_ofNat_byte {x : Nat} (hx : x < 256) : (UInt8.ofNat x).toNat = x :=
  UInt8.toNat_ofNat'.trans (Nat.mod_eq_of_lt hx)

/-- A lesser character has lesser bytes, whatever follows: the first byte tells how many there are,
and where there are more it is greater. -/
theorem utf8EncodeChar_append_lt {c d : Char} (hless : c < d) (front back : List UInt8) :
    String.utf8EncodeChar c ++ front < String.utf8EncodeChar d ++ back := by
  have hlt : c.val.toNat < d.val.toNat := hless
  have hmost : d.val.toNat < 0x110000 := by
    rcases d.valid with hvalid | ⟨_, hvalid⟩
    · exact Nat.lt_trans hvalid (by decide)
    · exact hvalid
  unfold String.utf8EncodeChar
  generalize c.val.toNat = m at hlt
  generalize d.val.toNat = n at hlt hmost
  by_cases hlong : 65535 < m
  · -- both characters have four bytes, which together are the digits of a number in base 64
    have hdigits : ∀ x < 0x110000, x = 262144 * (x / 262144 % 8) + 4096 * (x / 4096 % 64) +
        64 * (x / 64 % 64) + x % 64 ∧
        x / 262144 % 8 < 8 ∧ x / 4096 % 64 < 64 ∧ x / 64 % 64 < 64 ∧ x % 64 < 64 :=
      fun x hx => by omega
    obtain ⟨hm, hm₁, hm₂, hm₃, hm₄⟩ := hdigits m (by omega)
    obtain ⟨hn, hn₁, hn₂, hn₃, hn₄⟩ := hdigits n hmost
    have hfour : ∀ x, 65535 < x → ¬ x ≤ 127 ∧ ¬ x ≤ 2047 ∧ ¬ x ≤ 65535 := by omega
    simp only [hfour m hlong, hfour n (by omega), if_false]
    generalize m / 262144 % 8 = m₁, m / 4096 % 64 = m₂, m / 64 % 64 = m₃, m % 64 = m₄ at *
    generalize n / 262144 % 8 = n₁, n / 4096 % 64 = n₂, n / 64 % 64 = n₃, n % 64 = n₄ at *
    simp (disch := omega) only [List.cons_append, List.nil_append, List.cons_lt_cons_iff,
      UInt8.lt_iff_toNat_lt, ← UInt8.toNat_inj, toNat_ofNat_byte]
    omega
  · dsimp only
    split_ifs <;>
      simp (disch := omega) only [List.cons_append, List.nil_append, List.cons_lt_cons_iff,
        UInt8.lt_iff_toNat_lt, ← UInt8.toNat_inj, toNat_ofNat_byte] <;>
      omega

theorem flatMap_utf8EncodeChar_lt {front back : List Char} (hless : front < back) :
    front.flatMap String.utf8EncodeChar < back.flatMap String.utf8EncodeChar := by
  induction front generalizing back with
  | nil =>
      cases back with
      | nil => exact absurd hless (List.lt_irrefl [])
      | cons d rest =>
          have hpositive : String.utf8EncodeChar d ≠ [] :=
            List.ne_nil_of_length_pos (String.length_utf8EncodeChar d ▸ d.utf8Size_pos)
          obtain ⟨byte, more, hbytes⟩ := List.exists_cons_of_ne_nil hpositive
          rw [List.flatMap_cons, hbytes]
          exact List.nil_lt_cons _ _
  | cons c front ih =>
      cases back with
      | nil => exact absurd hless (List.not_lt_nil _)
      | cons d back =>
          rw [List.flatMap_cons, List.flatMap_cons]
          rcases List.cons_lt_cons_iff.mp hless with hfirst | ⟨rfl, hrest⟩
          · exact utf8EncodeChar_append_lt hfirst _ _
          · exact List.append_left_lt (ih hrest)

/-- The order of texts is that of their UTF-8 bytes. -/
theorem lt_iff_bytes_lt (a b : String) : a < b ↔ bytes a < bytes b := by
  rw [bytes_eq, bytes_eq, String.lt_iff]
  refine ⟨flatMap_utf8EncodeChar_lt, fun hbytes => ?_⟩
  rcases lt_trichotomy a.toList b.toList with hless | hsame | hgreater
  · exact hless
  · rw [hsame] at hbytes
    exact absurd hbytes (List.lt_irrefl _)
  · exact absurd hbytes (List.lt_asymm (flatMap_utf8EncodeChar_lt hgreater))

end RobotDescription.Text
