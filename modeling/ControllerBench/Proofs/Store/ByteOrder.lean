import ControllerBench.Store.Key

namespace ControllerBench

def bytes (s : String) : List UInt8 := s.toByteArray.data.toList

theorem bytes_eq (s : String) : bytes s = s.toList.flatMap String.utf8EncodeChar := by
  rw [bytes, ← String.utf8Encode_toList, List.utf8Encode, List.toList_data_toByteArray]

theorem ofNat_cons_lt {x y : Nat} (hx : x < 256) (hy : y < 256) {s t : List UInt8} :
    UInt8.ofNat x :: s < UInt8.ofNat y :: t ↔ x < y ∨ x = y ∧ s < t := by
  rw [List.cons_lt_cons_iff, UInt8.lt_iff_toNat_lt, ← UInt8.toNat_inj, UInt8.toNat_ofNat_of_lt' hx,
    UInt8.toNat_ofNat_of_lt' hy]

theorem digits_lt {m n : Nat} (h : m < n) (hn : n < 0x110000) :
    m / 262144 % 8 < n / 262144 % 8 ∨ m / 262144 % 8 = n / 262144 % 8 ∧
      (m / 4096 % 64 < n / 4096 % 64 ∨ m / 4096 % 64 = n / 4096 % 64 ∧
        (m / 64 % 64 < n / 64 % 64 ∨ m / 64 % 64 = n / 64 % 64 ∧ m % 64 < n % 64)) := by
  have step {x y : Nat} (h : x < y) : x / 64 < y / 64 ∨ x / 64 = y / 64 ∧ x % 64 < y % 64 := by
    omega
  have h₂ (v : Nat) : v / 4096 = v / 64 / 64 := (Nat.div_div_eq_div_mul v 64 64).symm
  have h₃ (v : Nat) : v / 262144 = v / 64 / 64 / 64 := by
    rw [← h₂, Nat.div_div_eq_div_mul]
  rw [Nat.mod_eq_of_lt (a := m / 262144) (by omega), Nat.mod_eq_of_lt (a := n / 262144) (by omega),
    h₂, h₂, h₃, h₃]
  rcases step h with h | ⟨he, h⟩
  · rcases step h with h | ⟨he, h⟩
    · rcases step h with h | ⟨he, h⟩
      · exact .inl h
      · exact .inr ⟨he, .inl h⟩
    · rw [he]
      exact .inr ⟨rfl, .inr ⟨rfl, .inl h⟩⟩
  · rw [he]
    exact .inr ⟨rfl, .inr ⟨rfl, .inr ⟨rfl, h⟩⟩⟩

theorem utf8EncodeChar_append_lt {c d : Char} (h : c < d) (s t : List UInt8) :
    String.utf8EncodeChar c ++ s < String.utf8EncodeChar d ++ t := by
  have hlt : c.val.toNat < d.val.toNat := h
  have hmax : d.val.toNat < 0x110000 := by
    rcases d.valid with hd | ⟨-, hd⟩
    · exact Nat.lt_trans hd (by decide)
    · exact hd
  have lengths (v : Nat) :
      v ≤ 0x7f ∨ (0x7f < v ∧ v ≤ 0x7ff) ∨ (0x7ff < v ∧ v ≤ 0xffff) ∨ 0xffff < v := by
    omega
  simp only [String.utf8EncodeChar]
  generalize c.val.toNat = m at hlt
  generalize d.val.toNat = n at hlt hmax
  have hdigits := digits_lt hlt hmax
  -- a longer code has the greater first byte, and codes of one length are digits of the same weights
  rcases lengths m with hm | hm | hm | hm <;> rcases lengths n with hn | hn | hn | hn <;>
    simp (disch := omega) only [if_pos, if_neg, List.cons_append, List.nil_append, ofNat_cons_lt] <;>
    omega

theorem flatMap_utf8EncodeChar_lt {cs ds : List Char} (h : cs < ds) :
    cs.flatMap String.utf8EncodeChar < ds.flatMap String.utf8EncodeChar := by
  induction h with
  | @nil d ds =>
    obtain ⟨x, xs, hx⟩ := List.exists_cons_of_ne_nil (String.utf8EncodeChar_ne_nil (c := d))
    rw [List.flatMap_cons, hx]
    exact .nil
  | rel h => exact utf8EncodeChar_append_lt h _ _
  | cons _ ih => exact List.append_left_lt ih

theorem bytes_lt_iff {s t : String} : bytes s < bytes t ↔ s < t := by
  have forth {s t : String} (h : s < t) : bytes s < bytes t := by
    rw [bytes_eq, bytes_eq]
    exact flatMap_utf8EncodeChar_lt h
  constructor
  · intro h
    refine Classical.byContradiction fun hn => ?_
    have hne : t ≠ s := fun he => List.lt_irrefl _ (he ▸ h)
    exact List.lt_asymm h (forth (Std.lt_of_le_of_ne (Std.not_lt.1 hn) hne))
  · exact forth

example : bytes "\uffff" < bytes "😀" := by decide

end ControllerBench
