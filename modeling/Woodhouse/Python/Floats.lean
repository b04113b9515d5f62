import Mathlib.Algebra.Order.Field.Power
import Mathlib.Tactic.Linarith
import Mathlib.Tactic.LinearCombination
import Mathlib.Tactic.Ring
import Mathlib.Tactic.Positivity
import Woodhouse.Python.Dumps

namespace Woodhouse.Python

theorem pow2_eq (e : Int) : pow2 e = (2 : ℚ) ^ e := by
  unfold pow2
  split
  · rename_i h
    obtain ⟨n,rfl⟩ := Int.eq_ofNat_of_zero_le h
    simp
  · rename_i h
    obtain ⟨n,hn⟩ := Int.eq_ofNat_of_zero_le (show 0 ≤ -e by omega)
    obtain rfl : e = -(n : Int) := by omega
    simp

theorem pow10_eq (e : Int) : pow10 e = (10 : ℚ) ^ e := by
  unfold pow10
  split
  · rename_i h
    obtain ⟨n,rfl⟩ := Int.eq_ofNat_of_zero_le h
    simp
  · rename_i h
    obtain ⟨n,hn⟩ := Int.eq_ofNat_of_zero_le (show 0 ≤ -e by omega)
    obtain rfl : e = -(n : Int) := by omega
    simp

section Rounding
variable {q x : ℚ} {n : Int}

theorem floor_eq (h : (n : ℚ) ≤ q) (h' : q < n + 1) : q.floor = n := Int.floor_eq_iff.mpr ⟨h,h'⟩

/-- A number closer than a half to an integer is rounded to it. -/
theorem roundHalfEven_eq (h : |q - n| < 1 / 2) : roundHalfEven q = n := by
  obtain ⟨hlow,hhigh⟩ := abs_lt.mp h
  unfold roundHalfEven
  rcases le_or_gt (n : ℚ) q with hle | hlt
  · rw [floor_eq hle (by linarith)]
    dsimp only
    rw [if_pos hhigh]
  · have hfloor : q.floor = n - 1 := floor_eq (by push_cast; linarith) (by push_cast; linarith)
    rw [hfloor]
    dsimp only
    push_cast
    rw [if_neg (by linarith),if_pos (by linarith)]
    omega

theorem roundHalfEven_int (n : Int) : roundHalfEven n = n := roundHalfEven_eq (by norm_num)

/-- Nothing is rounded by more than a half. -/
theorem roundHalfEven_near (q : ℚ) : |q - roundHalfEven q| ≤ 1 / 2 := by
  have hlow : (q.floor : ℚ) ≤ q := Int.floor_le q
  have hhigh : q < q.floor + 1 := Int.lt_floor_add_one q
  unfold roundHalfEven
  dsimp only
  split
  · rw [abs_le]
    constructor
    · linarith
    · linarith
  · split
    · push_cast
      rw [abs_le]
      constructor
      · linarith
      · linarith
    · split
      · rw [abs_le]
        constructor
        · linarith
        · linarith
      · push_cast
        rw [abs_le]
        constructor
        · linarith
        · linarith

theorem roundHalfEven_nonneg (h : 0 ≤ q) : 0 ≤ roundHalfEven q := by
  have hnear := (abs_le.mp (roundHalfEven_near q)).2
  have hlow : (-1 : ℚ) < roundHalfEven q := by linarith
  have hint : (-1 : Int) < roundHalfEven q := by exact_mod_cast hlow
  omega

end Rounding

section Places
variable {q : ℚ} {e : Int}

theorem two_pos (e : Int) : (0 : ℚ) < 2 ^ e := zpow_pos (by norm_num) e

theorem two_le {a b : Int} (h : a ≤ b) : (2 : ℚ) ^ a ≤ 2 ^ b := zpow_le_zpow_right₀ (by norm_num) h

theorem two_add (a : Int) (n : ℕ) : (2 : ℚ) ^ (a + n) = 2 ^ a * 2 ^ n := by
  rw [zpow_add₀ (by norm_num),zpow_natCast]

theorem log2_bounds {n : ℕ} (h : n ≠ 0) : (2 : ℚ) ^ (n.log2 : Int) ≤ n ∧
    (n : ℚ) < 2 ^ ((n.log2 : Int) + 1) := by
  constructor
  · rw [zpow_natCast]
    exact_mod_cast Nat.log2_self_le h
  · have hlt : n < 2 ^ (n.log2 + 1) := Nat.lt_log2_self
    have : ((n.log2 : Int) + 1) = ((n.log2 + 1 : ℕ) : Int) := by push_cast; rfl
    rw [this,zpow_natCast]
    exact_mod_cast hlt

/-- A positive number lies within a binary order of the lengths of its parts. -/
theorem within_lengths (hq : 0 < q) :
    (2 : ℚ) ^ ((q.num.natAbs.log2 : Int) - q.den.log2 - 1) ≤ q ∧
      q < 2 ^ ((q.num.natAbs.log2 : Int) - q.den.log2 + 1) := by
  have hnum : q.num.natAbs ≠ 0 := by
    have hpos : 0 < q.num := Rat.num_pos.mpr hq
    omega
  obtain ⟨hn,hn'⟩ := log2_bounds hnum
  obtain ⟨hd,hd'⟩ := log2_bounds q.den_nz
  have hden : (0 : ℚ) < q.den := by exact_mod_cast q.den_pos
  have habs : ((q.num.natAbs : ℕ) : ℚ) = q.num := by
    have hpos : 0 < q.num := Rat.num_pos.mpr hq
    rw [Nat.cast_natAbs,abs_of_pos hpos]
  have hdiv : (q.num.natAbs : ℚ) = q * q.den := by
    rw [habs]
    exact (Rat.mul_den_eq_num q).symm
  rw [hdiv] at hn hn'
  constructor
  · by_contra hlt
    rw [not_le] at hlt
    have h : q * q.den < 2 ^ ((q.num.natAbs.log2 : Int) - q.den.log2 - 1) * 2 ^ ((q.den.log2 : Int) + 1) :=
      mul_lt_mul hlt hd'.le hden (two_pos _).le
    rw [← zpow_add₀ (by norm_num)] at h
    have hexp : (q.num.natAbs.log2 : Int) - q.den.log2 - 1 + (q.den.log2 + 1) = q.num.natAbs.log2 := by
      omega
    rw [hexp] at h
    linarith
  · by_contra hle
    rw [not_lt] at hle
    have h : (2 : ℚ) ^ ((q.num.natAbs.log2 : Int) - q.den.log2 + 1) * 2 ^ (q.den.log2 : Int) ≤ q * q.den :=
      mul_le_mul hle hd (two_pos _).le hq.le
    rw [← zpow_add₀ (by norm_num)] at h
    have hexp : (q.num.natAbs.log2 : Int) - q.den.log2 + 1 + q.den.log2 = q.num.natAbs.log2 + 1 := by
      omega
    rw [hexp] at h
    linarith

/-- The last place of a number: 53 binary places reach it, and no fewer unless it is the least. -/
structure HasLastPlace (q : ℚ) (e : Int) : Prop where
  least : -1074 ≤ e
  above : q < 2 ^ (e + 53)
  below : e = -1074 ∨ 2 ^ (e + 52) ≤ q

theorem hasLastPlace (hq : 0 < q) : HasLastPlace q (lastPlace q) := by
  obtain ⟨hlow,hhigh⟩ := within_lengths hq
  unfold lastPlace
  dsimp only
  rw [pow2_eq]
  split
  · rename_i h
    refine ⟨le_max_right _ _,h.trans_le (two_le ?_),?_⟩
    · omega
    · rcases le_total ((q.num.natAbs.log2 : Int) - q.den.log2 - 53) (-1074) with hle | hle
      · exact .inl (max_eq_right hle)
      · right
        rw [max_eq_left hle]
        refine (two_le ?_).trans hlow
        omega
  · rename_i h
    rw [not_lt] at h
    refine ⟨le_max_right _ _,hhigh.trans_le (two_le ?_),?_⟩
    · omega
    · rcases le_total ((q.num.natAbs.log2 : Int) - q.den.log2 - 52) (-1074) with hle | hle
      · exact .inl (max_eq_right hle)
      · right
        rw [max_eq_left hle]
        refine (two_le ?_).trans h
        omega

theorem HasLastPlace.le {e' : Int} (h : HasLastPlace q e) (hleast : -1074 ≤ e')
    (habove : q < 2 ^ (e' + 53)) : e ≤ e' := by
  by_contra hlt
  rcases h.below with hlow | hbelow
  · omega
  · have hle : (2 : ℚ) ^ (e' + 53) ≤ 2 ^ (e + 52) := two_le (by omega)
    linarith

theorem HasLastPlace.eq (hq : 0 < q) (h : HasLastPlace q e) : lastPlace q = e :=
  le_antisymm ((hasLastPlace hq).le h.least h.above)
    (h.le (hasLastPlace hq).least (hasLastPlace hq).above)

end Places

/-- A magnitude of binary64: rounding keeps it. -/
def IsFloat (q : ℚ) : Prop := roundMagnitude false q = .finite false q

section Nearest
variable {q x : ℚ} {e : Int} {negative : Bool}

theorem roundMagnitude_pos (hx : 0 < x) : roundMagnitude negative x =
    if (roundHalfEven (x / 2 ^ lastPlace x) : ℚ) * 2 ^ lastPlace x < 2 ^ (1024 : Int) then
      .finite negative (roundHalfEven (x / 2 ^ lastPlace x) * 2 ^ lastPlace x)
    else .inf negative := by
  unfold roundMagnitude
  rw [if_neg hx.ne']
  dsimp only
  rw [pow2_eq,pow2_eq]

theorem roundMagnitude_signed (h : roundMagnitude false x = .finite false q) :
    roundMagnitude negative x = .finite negative q := by
  unfold roundMagnitude at h ⊢
  split at h
  · rename_i hx
    rw [if_pos hx]
    cases h
    rfl
  · rename_i hx
    rw [if_neg hx]
    dsimp only at h ⊢
    split at h
    · rename_i hm
      rw [if_pos hm]
      cases h
      rfl
    · cases h

/-- A float is an integer of its last place, below the largest power. -/
theorem IsFloat.grid (h : IsFloat q) (hq : 0 < q) :
    ∃ k : Int, q = k * 2 ^ lastPlace q ∧ q < 2 ^ (1024 : Int) := by
  unfold IsFloat at h
  rw [roundMagnitude_pos hq] at h
  split at h
  · rename_i hm
    have hsame : (roundHalfEven (q / 2 ^ lastPlace q) : ℚ) * 2 ^ lastPlace q = q := by
      injection h
    rw [hsame] at hm
    exact ⟨_,hsame.symm,hm⟩
  · cases h

/-- An integer of a place from the last one on is a float. -/
theorem isFloat_of_grid {k : Int} (hq : 0 < (k : ℚ) * 2 ^ e)
    (he : lastPlace ((k : ℚ) * 2 ^ e) ≤ e) (hmax : (k : ℚ) * 2 ^ e < 2 ^ (1024 : Int)) :
    IsFloat (k * 2 ^ e) := by
  obtain ⟨n,hn⟩ := Int.eq_ofNat_of_zero_le (show 0 ≤ e - lastPlace ((k : ℚ) * 2 ^ e) by omega)
  have hsplit : (2 : ℚ) ^ e = 2 ^ lastPlace ((k : ℚ) * 2 ^ e) * 2 ^ n := by
    rw [← two_add]
    congr 1
    omega
  have hgrid : (k : ℚ) * 2 ^ e / 2 ^ lastPlace ((k : ℚ) * 2 ^ e) = ((k * 2 ^ n : Int) : ℚ) := by
    rw [div_eq_iff (two_pos _).ne']
    calc (k : ℚ) * 2 ^ e = k * (2 ^ lastPlace ((k : ℚ) * 2 ^ e) * 2 ^ n) := by rw [← hsplit]
      _ = ((k * 2 ^ n : Int) : ℚ) * 2 ^ lastPlace ((k : ℚ) * 2 ^ e) := by
        push_cast
        ring
  unfold IsFloat
  rw [roundMagnitude_pos hq,hgrid,roundHalfEven_int,← hgrid,div_mul_cancel₀ _ (two_pos _).ne',
    if_pos hmax]

/-- A significand of 53 places, or the power after them, makes a float. -/
theorem isFloat_of_significand {k : Int} (hk : 0 < k) (hmost : k ≤ 2 ^ 53) (he : -1074 ≤ e)
    (hmax : (k : ℚ) * 2 ^ e < 2 ^ (1024 : Int)) : IsFloat (k * 2 ^ e) := by
  have hkq : (0 : ℚ) < k := by exact_mod_cast hk
  have hpos : 0 < (k : ℚ) * 2 ^ e := mul_pos hkq (two_pos e)
  rcases hmost.lt_or_eq with hlt | rfl
  · refine isFloat_of_grid hpos ((hasLastPlace hpos).le he ?_) hmax
    have hcast : (k : ℚ) < 2 ^ 53 := by exact_mod_cast hlt
    rw [show e + 53 = e + ((53 : ℕ) : Int) by push_cast; rfl,two_add,mul_comm]
    exact mul_lt_mul_of_pos_left hcast (two_pos e)
  · have hnext : ((2 ^ 53 : Int) : ℚ) * 2 ^ e = ((2 ^ 52 : Int) : ℚ) * 2 ^ (e + 1) := by
      rw [show e + 1 = e + ((1 : ℕ) : Int) by push_cast; rfl,two_add]
      push_cast
      ring
    rw [hnext] at hpos hmax ⊢
    refine isFloat_of_grid hpos ((hasLastPlace hpos).le (by omega) ?_) hmax
    rw [show e + 1 + 53 = (e + 1) + ((53 : ℕ) : Int) by push_cast; rfl,two_add,mul_comm]
    refine mul_lt_mul_of_pos_left ?_ (two_pos _)
    norm_num

theorem isFloat_zero : IsFloat 0 := by
  unfold IsFloat roundMagnitude
  rw [if_pos rfl]

/-- Rounding gives a float. -/
theorem isFloat_roundMagnitude {negative' : Bool} (hx : 0 ≤ x)
    (h : roundMagnitude negative x = .finite negative' q) : 0 ≤ q ∧ IsFloat q := by
  rcases hx.eq_or_lt with rfl | hx
  · unfold roundMagnitude at h
    rw [if_pos rfl] at h
    cases h
    exact ⟨le_refl 0,isFloat_zero⟩
  · rw [roundMagnitude_pos hx] at h
    split at h
    · rename_i hm
      have hplace := hasLastPlace hx
      have hnonneg : 0 ≤ roundHalfEven (x / 2 ^ lastPlace x) :=
        roundHalfEven_nonneg (div_nonneg hx.le (two_pos _).le)
      have hbound : x / 2 ^ lastPlace x < 2 ^ 53 := by
        rw [div_lt_iff₀ (two_pos _),mul_comm,← two_add]
        exact_mod_cast hplace.above
      have hmost : roundHalfEven (x / 2 ^ lastPlace x) ≤ 2 ^ 53 := by
        have hnear := (abs_le.mp (roundHalfEven_near (x / 2 ^ lastPlace x))).1
        have hlt : (roundHalfEven (x / 2 ^ lastPlace x) : ℚ) < ((2 ^ 53 + 1 : Int) : ℚ) := by
          push_cast
          linarith
        have hint : roundHalfEven (x / 2 ^ lastPlace x) < 2 ^ 53 + 1 := by exact_mod_cast hlt
        omega
      cases h
      refine ⟨mul_nonneg (by exact_mod_cast hnonneg) (two_pos _).le,?_⟩
      rcases hnonneg.eq_or_lt with hzero | hpos
      · rw [← hzero,Int.cast_zero,zero_mul]
        exact isFloat_zero
      · exact isFloat_of_significand hpos hmost hplace.least hm
    · cases h

/-- A number is rounded to the integer of its last place that is nearer than a half. -/
theorem rounds_to_grid {k : Int} (hx : 0 < x) (hplace : HasLastPlace x e)
    (hnear : |x - k * 2 ^ e| < 2 ^ e / 2) (hmax : (k : ℚ) * 2 ^ e < 2 ^ (1024 : Int)) :
    roundMagnitude false x = .finite false (k * 2 ^ e) := by
  have hlast := hplace.eq hx
  have hround : roundHalfEven (x / 2 ^ e) = k := by
    refine roundHalfEven_eq ?_
    have hsub : x / 2 ^ e - k = (x - k * 2 ^ e) / 2 ^ e := by
      rw [sub_div,mul_div_cancel_right₀ _ (two_pos e).ne']
    rw [hsub,abs_div,abs_of_pos (two_pos e),div_lt_iff₀ (two_pos e)]
    linarith
  rw [roundMagnitude_pos hx,hlast,hround,if_pos hmax]

/-- Seventeen digits single out a float: what is as near to it as they are rounds to it. -/
theorem rounds_to_near (hf : IsFloat q) (hq : 0 < q) (hx : |x - q| ≤ q / (2 * 10 ^ 16)) :
    roundMagnitude false x = .finite false q := by
  obtain ⟨k,hk,hmax⟩ := hf.grid hq
  have hplace := hasLastPlace hq
  generalize he : lastPlace q = e at hk hplace
  have hunit := two_pos e
  have habove : q < 2 ^ 53 * 2 ^ e := by
    have h := hplace.above
    rw [show e + 53 = e + ((53 : ℕ) : Int) by push_cast; rfl,two_add] at h
    linarith
  obtain ⟨hlow,hhigh⟩ := abs_le.mp hx
  have hpos : 0 < x := by linarith
  have hnear : |x - k * 2 ^ e| < 2 ^ e / 2 := by
    rw [← hk]
    linarith
  have hmost : k ≤ 2 ^ 53 - 1 := by
    rw [hk] at habove
    have hlt : (k : ℚ) < 2 ^ 53 := lt_of_mul_lt_mul_right habove hunit.le
    have hint : k < 2 ^ 53 := by exact_mod_cast hlt
    omega
  have hmostq : (k : ℚ) ≤ 2 ^ 53 - 1 := by exact_mod_cast hmost
  have hbelow : x < 2 ^ (e + 53) := by
    rw [show e + 53 = e + ((53 : ℕ) : Int) by push_cast; rfl,two_add]
    have hle : (k : ℚ) * 2 ^ e ≤ (2 ^ 53 - 1) * 2 ^ e := mul_le_mul_of_nonneg_right hmostq hunit.le
    have habs := (abs_lt.mp hnear).2
    linarith
  by_cases hplaced : e = -1074 ∨ 2 ^ (e + 52) ≤ x
  · rw [rounds_to_grid hpos ⟨hplace.least,hbelow,hplaced⟩ hnear (hk ▸ hmax),← hk]
  · -- just below a power of two the places are finer
    rw [not_or,not_le] at hplaced
    obtain ⟨hnot,hunder⟩ := hplaced
    have hover : 2 ^ (e + 52) ≤ q := hplace.below.resolve_left hnot
    have hpower : (2 : ℚ) ^ (e + 52) = 2 ^ 52 * 2 ^ e := by
      rw [show e + 52 = e + ((52 : ℕ) : Int) by push_cast; rfl,two_add]
      ring
    have hhalf : (2 : ℚ) ^ e = 2 * 2 ^ (e - 1) := by
      rw [show e = e - 1 + ((1 : ℕ) : Int) by push_cast; ring,two_add]
      ring_nf
    rw [hpower] at hover hunder
    have hkeq : k = 2 ^ 52 := by
      have hge : (2 ^ 52 : ℚ) ≤ k := by
        rw [hk] at hover
        exact le_of_mul_le_mul_right hover hunit
      have hlt : (k : ℚ) < 2 ^ 52 + 1 := by
        have habs := (abs_lt.mp hnear).1
        have h : (k : ℚ) * 2 ^ e < (2 ^ 52 + 1) * 2 ^ e := by linarith
        exact lt_of_mul_lt_mul_right h hunit.le
      have hgei : (2 ^ 52 : Int) ≤ k := by exact_mod_cast hge
      have hlti : k < 2 ^ 52 + 1 := by exact_mod_cast hlt
      omega
    have hsame : q = ((2 ^ 53 : Int) : ℚ) * 2 ^ (e - 1) := by
      rw [hk,hkeq,hhalf]
      push_cast
      ring
    rw [hsame] at hmax hlow hhigh hover ⊢
    have hfine := two_pos (e - 1)
    push_cast at hlow hhigh
    refine rounds_to_grid hpos ⟨?_,?_,.inr ?_⟩ ?_ hmax
    · have := hplace.least
      omega
    · rw [show e - 1 + 53 = e + 52 by ring,hpower]
      exact hunder
    · rw [show e - 1 + 52 = e - 1 + ((52 : ℕ) : Int) by push_cast; rfl,two_add]
      linarith
    · push_cast
      rw [abs_lt]
      constructor
      · linarith
      · linarith

/-- What rounds to a finite float is not far above the largest. -/
theorem lt_of_rounds (hx : 0 < x) (h : roundMagnitude false x = .finite false q) :
    x < 2 ^ (1025 : Int) := by
  rw [roundMagnitude_pos hx] at h
  have hplace := hasLastPlace hx
  split at h
  · rename_i hm
    have hnear := (abs_le.mp (roundHalfEven_near (x / 2 ^ lastPlace x))).2
    have hunit := two_pos (lastPlace x)
    have hclose : x ≤ roundHalfEven (x / 2 ^ lastPlace x) * 2 ^ lastPlace x + 2 ^ lastPlace x / 2 := by
      have hle : x / 2 ^ lastPlace x ≤ roundHalfEven (x / 2 ^ lastPlace x) + 1 / 2 := by linarith
      rw [div_le_iff₀ hunit] at hle
      linarith
    rcases hplace.below with hleast | hbelow
    · have hle : (2 : ℚ) ^ (lastPlace x + 53) ≤ 2 ^ (1025 : Int) := two_le (by omega)
      exact hplace.above.trans_le hle
    · have hsmall : (2 : ℚ) ^ lastPlace x ≤ x := (two_le (by omega)).trans hbelow
      have hpower : (2 : ℚ) ^ (1025 : Int) = 2 ^ (1024 : Int) * 2 := by
        rw [show (1025 : Int) = 1024 + ((1 : ℕ) : Int) by norm_num,two_add,pow_one]
      rw [hpower]
      generalize (2 : ℚ) ^ (1024 : Int) = top at hm ⊢
      linarith
  · cases h

/-- What is below a fourth of the least place is rounded to zero. -/
theorem rounds_to_zero (hx : 0 < x) (h : x < 2 ^ (-1076 : Int)) :
    roundMagnitude false x = .finite false 0 := by
  have hplace : HasLastPlace x (-1074) := ⟨le_refl _,h.trans_le (two_le (by norm_num)),.inl rfl⟩
  have hzero := rounds_to_grid (k := 0) hx hplace (by
    rw [Int.cast_zero,zero_mul,sub_zero,abs_of_pos hx]
    have hsplit : (2 : ℚ) ^ (-1074 : Int) = 2 ^ (-1076 : Int) * 4 := by
      rw [show (-1074 : Int) = -1076 + ((2 : ℕ) : Int) by norm_num,two_add]
      ring
    rw [hsplit]
    have := two_pos (-1076)
    linarith) (by
    rw [Int.cast_zero,zero_mul]
    exact two_pos _)
  rw [hzero,Int.cast_zero,zero_mul]

end Nearest

section Shortest
variable {q : ℚ} {point : Int}

theorem ten_pos (e : Int) : (0 : ℚ) < 10 ^ e := zpow_pos (by norm_num) e

theorem decimal_length_pos (n : ℕ) : 0 < (decimal n).length := by
  unfold decimal
  rw [List.length_map]
  exact Nat.length_toDigits_pos

theorem decimal_bounds {n : ℕ} (hn : n ≠ 0) : (10 : ℚ) ^ (((decimal n).length : Int) - 1) ≤ n ∧
    (n : ℚ) < 10 ^ ((decimal n).length : Int) := by
  have hpos := decimal_length_pos n
  have hlength : (decimal n).length = (Nat.toDigits 10 n).length := List.length_map ..
  constructor
  · obtain ⟨k,hk⟩ := Nat.exists_eq_succ_of_ne_zero hpos.ne'
    rw [hk,show ((k.succ : ℕ) : Int) - 1 = (k : Int) by push_cast; ring,zpow_natCast]
    by_contra hlt
    rw [not_le] at hlt
    have hnat : n < 10 ^ k := by exact_mod_cast hlt
    rcases Nat.eq_zero_or_pos k with rfl | hkpos
    · omega
    · have hle := (Nat.length_toDigits_le_iff (by norm_num) hkpos).mpr hnat
      omega
  · rw [zpow_natCast]
    have hlt := (Nat.length_toDigits_le_iff (b := 10) (by norm_num) (hlength ▸ hpos)).mp (le_refl _)
    rw [← hlength] at hlt
    exact_mod_cast hlt

theorem decimalPoint_le (hq : 0 < q) : 10 ^ (decimalPoint q - 1) ≤ q := by
  have hnum : q.num.natAbs ≠ 0 := by
    have hpos : 0 < q.num := Rat.num_pos.mpr hq
    omega
  obtain ⟨hn,_⟩ := decimal_bounds hnum
  obtain ⟨_,hd⟩ := decimal_bounds q.den_nz
  have hden : (0 : ℚ) < q.den := by exact_mod_cast q.den_pos
  have hmul : (q.num.natAbs : ℚ) = q * q.den := by
    have hpos : 0 < q.num := Rat.num_pos.mpr hq
    rw [Nat.cast_natAbs,abs_of_pos hpos]
    exact (Rat.mul_den_eq_num q).symm
  rw [hmul] at hn
  unfold decimalPoint
  dsimp only
  rw [pow10_eq]
  split
  · by_contra hlt
    rw [not_le] at hlt
    have h : q * q.den < 10 ^ (((decimal q.num.natAbs).length : Int) - (decimal q.den).length - 1) *
        10 ^ ((decimal q.den).length : Int) := mul_lt_mul hlt hd.le hden (ten_pos _).le
    rw [← zpow_add₀ (by norm_num)] at h
    have hexp : ((decimal q.num.natAbs).length : Int) - (decimal q.den).length - 1 +
        (decimal q.den).length = (decimal q.num.natAbs).length - 1 := by
      omega
    rw [hexp] at h
    linarith
  · rename_i h
    rw [add_sub_cancel_right]
    exact not_lt.mp h

/-- Seventeen places always read back. -/
theorem rounds_seventeen (hf : IsFloat q) (hq : 0 < q) (hpoint : 10 ^ (point - 1) ≤ q) :
    roundMagnitude false (roundHalfEven (q * 10 ^ (17 - point)) * 10 ^ (point - 17)) =
      .finite false q := by
  refine rounds_to_near hf hq ?_
  have hunit := ten_pos (point - 17)
  have hinv : (10 : ℚ) ^ (17 - point) * 10 ^ (point - 17) = 1 := by
    rw [← zpow_add₀ (by norm_num)]
    norm_num
  have hdiff : (roundHalfEven (q * 10 ^ (17 - point)) : ℚ) * 10 ^ (point - 17) - q =
      (roundHalfEven (q * 10 ^ (17 - point)) - q * 10 ^ (17 - point)) * 10 ^ (point - 17) := by
    linear_combination q * hinv
  have hstep : (10 : ℚ) ^ (point - 1) = 10 ^ 16 * 10 ^ (point - 17) := by
    rw [show point - 1 = ((16 : ℕ) : Int) + (point - 17) by push_cast; ring,
      zpow_add₀ (by norm_num),zpow_natCast]
  have hnear := mul_le_mul_of_nonneg_right (roundHalfEven_near (q * 10 ^ (17 - point))) hunit.le
  rw [hdiff,abs_mul,abs_of_pos hunit,abs_sub_comm]
  refine hnear.trans ?_
  rw [hstep] at hpoint
  rw [le_div_iff₀ (by norm_num)]
  calc 1 / 2 * 10 ^ (point - 17) * (2 * 10 ^ 16) = 10 ^ 16 * 10 ^ (point - 17) := by ring
    _ ≤ q := hpoint

/-- The digits found read back as the float. -/
theorem shortestDigits_reads (hf : IsFloat q) (hq : 0 < q) (hpoint : 10 ^ (point - 1) ≤ q)
    (fuel places : ℕ) (hfuel : 0 < fuel) (hplaces : fuel + places = 18) :
    roundMagnitude false ((shortestDigits q point fuel places).1 *
      10 ^ (shortestDigits q point fuel places).2) = .finite false q := by
  induction fuel generalizing places with
  | zero => omega
  | succ fuel ih =>
    have hnonneg : 0 ≤ roundHalfEven (q * pow10 (places - point)) := by
      rw [pow10_eq]
      exact roundHalfEven_nonneg (mul_pos hq (ten_pos _)).le
    have hother : 0 ≤ (if (roundHalfEven (q * pow10 (places - point)) : ℚ) ≤
        q * pow10 (places - point) then roundHalfEven (q * pow10 (places - point)) + 1
        else roundHalfEven (q * pow10 (places - point)) - 1) := by
      split
      · omega
      · rename_i habove
        have hscaled : 0 < q * pow10 (places - point) := by
          rw [pow10_eq]
          exact mul_pos hq (ten_pos _)
        have hpos : (0 : ℚ) < roundHalfEven (q * pow10 (places - point)) := by linarith
        have hint : 0 < roundHalfEven (q * pow10 (places - point)) := by exact_mod_cast hpos
        omega
    have hback : ∀ m : Int, 0 ≤ m →
        decide (roundMagnitude false (m * pow10 (point - places)) = .finite false q) = true →
        roundMagnitude false ((m.toNat : ℕ) * 10 ^ (point - places)) = .finite false q := by
      intro m hm hreads
      have hcast : ((m.toNat : ℕ) : ℚ) = m := by exact_mod_cast Int.toNat_of_nonneg hm
      rw [hcast,← pow10_eq]
      exact of_decide_eq_true hreads
    unfold shortestDigits
    dsimp only
    generalize (if (roundHalfEven (q * pow10 (places - point)) : ℚ) ≤
      q * pow10 (places - point) then roundHalfEven (q * pow10 (places - point)) + 1
      else roundHalfEven (q * pow10 (places - point)) - 1) = other at hother ⊢
    split
    · rename_i hreads
      exact hback _ hnonneg hreads
    · rename_i hnearest
      split
      · rename_i hreads
        exact hback _ hother hreads
      · rcases Nat.eq_zero_or_pos fuel with rfl | hpos
        · exfalso
          apply hnearest
          obtain rfl : places = 17 := by omega
          rw [pow10_eq,pow10_eq]
          exact decide_eq_true (rounds_seventeen hf hq hpoint)
        · exact ih (places + 1) hpos (by omega)

end Shortest

end Woodhouse.Python
