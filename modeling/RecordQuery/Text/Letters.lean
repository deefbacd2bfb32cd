/-! Letter case of names. Only the letters A to Z have two cases here; every
other character is its own. -/
namespace RecordQuery.Text

def lower (s : String) : String := s.map Char.toLower

def upper (s : String) : String := s.map Char.toUpper

/-- Equal up to the case of the letters A to Z. -/
def sameName (a b : String) : Bool := lower a == lower b

@[simp] theorem sameName_self (a : String) : sameName a a = true := by simp [sameName]

theorem sameName_comm (a b : String) : sameName a b = sameName b a := Bool.beq_comm

theorem sameName_trans {a b c : String} (ab : sameName a b = true) (bc : sameName b c = true) :
    sameName a c = true := by
  simp only [sameName, beq_iff_eq] at *
  exact ab.trans bc

end RecordQuery.Text
