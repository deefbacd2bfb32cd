import RecordQuery.Text.Letters
import RecordQuery.Text.Word

/-! Lower case keeps names names, and lowering twice changes nothing more. -/
namespace RecordQuery.Text

theorem toNat_toLower (c : Char) :
    c.toLower.toNat = if 65 ≤ c.toNat ∧ c.toNat ≤ 90 then c.toNat + 32 else c.toNat := by
  have bounds : (c.val ≥ 'A'.val ∧ c.val ≤ 'Z'.val) ↔ 65 ≤ c.toNat ∧ c.toNat ≤ 90 := Iff.rfl
  unfold Char.toLower
  split
  next upper =>
    rw [if_pos (bounds.mp upper)]
    have small := (bounds.mp upper).2
    have sum : (c.val + ('a'.val - 'A'.val)).toNat = (c.val.toNat + 32) % 2 ^ 32 := rfl
    have same : c.toNat = c.val.toNat := rfl
    show (c.val + ('a'.val - 'A'.val)).toNat = c.toNat + 32
    omega
  next other => rw [if_neg (mt bounds.mpr other)]

theorem toLower_toLower (c : Char) : c.toLower.toLower = c.toLower := by
  apply Char.toNat_inj.mp
  rw [toNat_toLower c.toLower, toNat_toLower c]
  by_cases upper : 65 ≤ c.toNat ∧ c.toNat ≤ 90
  · rw [if_pos upper, if_neg (by omega)]
  · rw [if_neg upper, if_neg upper]

@[simp] theorem toList_lower (s : String) : (lower s).toList = s.toList.map Char.toLower := by
  simp [lower]

@[simp] theorem lower_lower (s : String) : lower (lower s) = lower s := by
  rw [← String.toList_inj, toList_lower, toList_lower, List.map_map]
  exact List.map_congr_left fun c _ => toLower_toLower c

theorem lower_eq_self {s : String} (letters : s.toList.map Char.toLower = s.toList) : lower s = s := by
  rw [← String.toList_inj, toList_lower, letters]

theorem isAlphanum_toLower (c : Char) : c.toLower.isAlphanum = c.isAlphanum := by
  rw [Bool.eq_iff_iff, isAlphanum_iff, isAlphanum_iff, toNat_toLower]
  split <;> omega

theorem isWord_toLower (c : Char) : isWord c.toLower = isWord c := by
  by_cases upper : 65 ≤ c.toNat ∧ c.toNat ≤ 90
  · have small : c.toLower.toNat < 0x80 := by rw [toNat_toLower, if_pos upper]; omega
    have alphanumeric : c.isAlphanum = true := (isAlphanum_iff c).mpr (.inl (.inl upper))
    rw [isWord_of_isAlphanum c alphanumeric]
    exact isWord_of_isAlphanum _ (isAlphanum_toLower c ▸ alphanumeric)
  · have same : c.toLower = c := by
      apply Char.toNat_inj.mp
      rw [toNat_toLower, if_neg upper]
    rw [same]

theorem isName_iff {s : List Char} : isName s = true ↔ s ≠ [] ∧ ∀ c ∈ s, isWord c = true := by
  simp [isName, List.all_eq_true]

theorem isName_lower {s : String} (name : isName s.toList = true) :
    isName (lower s).toList = true := by
  simp only [isName, toList_lower, List.isEmpty_map, List.all_map] at *
  simpa [Function.comp_def, isWord_toLower] using name

theorem sameName_iff (a b : String) : sameName a b = true ↔ lower a = lower b := by simp [sameName]

theorem sameName_iff_letters (a b : String) :
    sameName a b = true ↔ a.toList.map Char.toLower = b.toList.map Char.toLower := by
  rw [sameName_iff, ← String.toList_inj, toList_lower, toList_lower]

end RecordQuery.Text
