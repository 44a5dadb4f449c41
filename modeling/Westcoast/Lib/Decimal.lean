import Mathlib.Algebra.Order.Ring.Int

/-!
# Decimal numbers in 64 bits

An integer as text, and the text read again as a signed number of 64 bits: an optional sign, then
digits and nothing else.
-/
namespace Westcoast.Lib

def formatInt (v : ℤ) : String :=
  .ofList (if v < 0 then '-' :: Nat.toDigits 10 v.natAbs else Nat.toDigits 10 v.natAbs)

def parseDigits (cs : List Char) : Option ℕ :=
  if cs ≠ [] ∧ cs.all Char.isDigit then some (Nat.ofDigitChars 10 cs 0) else none

def toInt64 (v : ℤ) : Option ℤ :=
  if -2 ^ 63 ≤ v ∧ v < 2 ^ 63 then some v else none

/-- A signed number of 64 bits, in base ten. -/
def parseInt (s : String) : Option ℤ :=
  match s.toList with
  | '-' :: cs => (parseDigits cs).bind fun n => toInt64 (-n)
  | '+' :: cs => (parseDigits cs).bind fun n => toInt64 n
  | cs => (parseDigits cs).bind fun n => toInt64 n

/-- Text that is a number has signs and digits only. -/
theorem isDigit_of_parseInt {s : String} {v : ℤ} (h : parseInt s = some v) {c : Char}
    (hc : c ∈ s.toList) : c = '-' ∨ c = '+' ∨ c.isDigit = true := by
  have hdigits : ∀ {cs : List Char} {f : ℕ → Option ℤ}, (parseDigits cs).bind f = some v →
      ∀ c ∈ cs, c.isDigit = true := by
    intro cs f hbind c hmem
    obtain ⟨n, hn, -⟩ := Option.bind_eq_some_iff.mp hbind
    obtain ⟨hcs, -⟩ := Option.ite_none_right_eq_some.mp hn
    exact List.all_eq_true.mp hcs.2 c hmem
  simp only [parseInt] at h
  split at h
  · next cs hcs =>
    rw [hcs, List.mem_cons] at hc
    exact hc.imp_right fun hc => .inr (hdigits h c hc)
  · next cs hcs =>
    rw [hcs, List.mem_cons] at hc
    exact .inr (hc.imp_right fun hc => hdigits h c hc)
  · exact .inr (.inr (hdigits h c hc))

theorem parseDigits_toDigits (n : ℕ) : parseDigits (Nat.toDigits 10 n) = some n := by
  have hall : (Nat.toDigits 10 n).all Char.isDigit = true :=
    List.all_eq_true.mpr fun c hc => Nat.isDigit_of_mem_toDigits (by decide) (by decide) hc
  rw [parseDigits, if_pos ⟨Nat.toDigits_ne_nil, hall⟩, Nat.ofDigitChars_ten_toDigits]

theorem parseInt_formatInt {v : ℤ} (h : -2 ^ 63 ≤ v ∧ v < 2 ^ 63) :
    parseInt (formatInt v) = some v := by
  have hfits : toInt64 v = some v := if_pos h
  simp only [parseInt, formatInt, String.toList_ofList]
  split_ifs with hneg
  · have hval : (-(v.natAbs : ℤ)) = v := by omega
    simp only [parseDigits_toDigits, Option.bind_some, hval, hfits]
  · have hval : ((v.natAbs : ℕ) : ℤ) = v := by omega
    -- the first digit is not a sign
    have hdigit : ∀ c cs, Nat.toDigits 10 v.natAbs = c :: cs → c.isDigit = true := by
      intro c cs heq
      exact Nat.isDigit_of_mem_toDigits (b := 10) (n := v.natAbs) (by decide) (by decide)
        (heq ▸ List.mem_cons_self)
    split
    · next cs heq => exact absurd (hdigit _ _ heq) (by decide)
    · next cs heq => exact absurd (hdigit _ _ heq) (by decide)
    · rw [parseDigits_toDigits, Option.bind_some, hval, hfits]

end Westcoast.Lib
