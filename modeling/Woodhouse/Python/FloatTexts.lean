import Mathlib.Data.List.DropRight
import Woodhouse.Python.Ascii
import Woodhouse.Python.Floats
import Woodhouse.Python.NumberTexts

namespace Woodhouse.Python

section Digits
variable {n : ℕ} {a b : List ℕ} {s : Str}

theorem foldl_digits (seed : ℕ) (b : List ℕ) :
    b.foldl (fun n d => 10 * n + d) seed = seed * 10 ^ b.length + ofDigits b := by
  induction b generalizing seed with
  | nil => simp [ofDigits]
  | cons d b ih =>
    have hrest : ofDigits (d :: b) = d * 10 ^ b.length + ofDigits b := by
      rw [ofDigits,List.foldl_cons,ih,Nat.mul_zero,Nat.zero_add]
    rw [List.foldl_cons,ih,hrest,List.length_cons]
    ring

theorem ofDigits_append : ofDigits (a ++ b) = ofDigits a * 10 ^ b.length + ofDigits b := by
  rw [ofDigits,List.foldl_append,foldl_digits]
  rfl

theorem ofDigits_zeros (n : ℕ) : ofDigits (List.replicate n 0) = 0 := by
  induction n with
  | zero => rfl
  | succ n ih =>
    rw [List.replicate_succ',ofDigits_append,ih]
    rfl

theorem ofDigits_lt (h : ∀ d ∈ a, d < 10) : ofDigits a < 10 ^ a.length := by
  induction a using List.reverseRecOn with
  | nil => decide
  | append_singleton a d ih =>
    have hrest := ih (fun x hx => h x (by simp [hx]))
    have hd := h d (by simp)
    have hsingle : ofDigits [d] = d := by simp [ofDigits]
    rw [ofDigits_append,hsingle,List.length_append,List.length_singleton,pow_succ]
    omega

theorem IsDigits.lt_ten (h : IsDigits s) : ∀ d ∈ digitValues s, d < 10 := by
  intro d hd
  obtain ⟨c,hc,rfl⟩ := List.mem_map.mp hd
  have hrange := isDigit_iff.mp (h c hc)
  omega

theorem digitValues_zeros (n : ℕ) : digitValues (List.replicate n (chr '0')) = List.replicate n 0 :=
  List.map_replicate

theorem isDigits_zeros (n : ℕ) : IsDigits (List.replicate n (chr '0')) := by
  intro c hc
  rw [List.eq_of_mem_replicate hc]
  decide

theorem isDigits_decimal (n : ℕ) : IsDigits (decimal n) :=
  fun _ hc => isDigit_iff.mpr (decimal_digit hc)

/-- The decimal digits of a number write it. -/
theorem ofDigits_decimal (n : ℕ) : ofDigits (digitValues (decimal n)) = n := by
  have hvalues : digitValues (decimal n) =
      (Nat.toDigits 10 n).map (fun c => c.toNat - '0'.toNat) := by
    unfold digitValues decimal
    rw [List.map_map]
    refine List.map_congr_left ?_
    intro c hc
    have hmem : chr c ∈ decimal n := List.mem_map_of_mem hc
    have hdigit := Nat.isDigit_of_mem_toDigits (by decide) (by decide) hc
    simp only [Char.isDigit,Bool.and_eq_true,decide_eq_true_eq] at hdigit
    have hhigh : c.toNat ≤ 57 := UInt32.le_iff_toNat_le.mp hdigit.2
    have hval : (chr c).val = c.toNat := by
      unfold chr
      rw [Fin.val_ofNat,Nat.mod_eq_of_lt (by omega)]
    rw [Function.comp_apply,hval]
    rfl
  rw [hvalues]
  unfold ofDigits
  rw [List.foldl_map]
  exact Nat.ofDigitChars_ten_toDigits

theorem decimal_ne_nil (n : ℕ) : decimal n ≠ [] := by
  intro h
  have hpos := decimal_length_pos n
  rw [h] at hpos
  exact absurd hpos (by decide)

/-- No zero leads the digits of a number. -/
theorem decimal_head (hn : n ≠ 0) : (decimal n).head? ≠ some (chr '0') := by
  intro hhead
  obtain ⟨rest,hrest⟩ := List.head?_eq_some_iff.mp hhead
  have hdigits : IsDigits rest := (isDigits_decimal n).subset (by rw [hrest]; simp)
  have hlt := ofDigits_lt hdigits.lt_ten
  have hvalue := ofDigits_decimal n
  have hlow := (decimal_bounds hn).1
  rw [hrest] at hvalue hlow
  have hsame : ofDigits (digitValues (chr '0' :: rest)) = ofDigits (digitValues rest) := rfl
  rw [hsame] at hvalue
  rw [List.length_cons,show ((rest.length + 1 : ℕ) : Int) - 1 = (rest.length : Int) by push_cast; ring,
    zpow_natCast] at hlow
  have hle : 10 ^ rest.length ≤ n := by exact_mod_cast hlow
  rw [hvalue,digitValues_length] at hlt
  omega

theorem isWhole_of_digits (hs : IsDigits s) (hne : s ≠ []) (hhead : s.head? ≠ some (chr '0')) :
    IsWhole s := by
  cases s with
  | nil => exact absurd rfl hne
  | cons c rest =>
    obtain ⟨hc,hrest⟩ := List.forall_mem_cons.mp hs
    exact .digits hc (fun h => hhead (congrArg some h)) hrest

theorem isWhole_decimal (n : ℕ) : IsWhole (decimal n) := by
  rcases Nat.eq_zero_or_pos n with rfl | hpos
  · exact .zero
  · exact isWhole_of_digits (isDigits_decimal n) (decimal_ne_nil n) (decimal_head hpos.ne')

theorem exists_trimZeros (s : Str) : ∃ n, s = trimZeros s ++ List.replicate n (chr '0') := by
  refine ⟨(s.rtakeWhile (· = chr '0')).length,?_⟩
  have hzeros : s.rtakeWhile (· = chr '0') =
      List.replicate (s.rtakeWhile (· = chr '0')).length (chr '0') := by
    refine List.eq_replicate_iff.mpr ⟨rfl,?_⟩
    intro c hc
    simpa using List.mem_rtakeWhile_imp hc
  rw [← hzeros]
  exact List.rdropWhile_append_rtakeWhile.symm

end Digits

section Integers
variable {limit depth : ℕ} {i : Int}

theorem reprInt_eq (i : Int) : reprInt i = signed (decide (i < 0)) (decimal i.natAbs) := by
  unfold reprInt signed
  simp only [decide_eq_true_eq]

/-- An integer that is not too long for `int()` is read back. -/
theorem readsValue_int (h : (decimal i.natAbs).length ≤ maxStrDigits) :
    ReadsValue limit depth (reprInt i) (.int i) := by
  rw [reprInt_eq]
  refine readsValue_whole (isWhole_decimal i.natAbs) ?_
  unfold intOfDigits
  rw [digitValues_length,if_neg (by omega),ofDigits_decimal]
  congr 1
  split
  · rename_i hneg
    have := of_decide_eq_true hneg
    omega
  · rename_i hneg
    have := of_decide_eq_false (by simpa using hneg : decide (i < 0) = false)
    omega

end Integers

section Placing
variable {ds : Str} {point : Int}

/-- What a number says with its parts. -/
def NumberParts.value (p : NumberParts) : ℚ :=
  ofDigits (digitValues p.whole ++ digitValues p.frac) * 10 ^ (p.exponent - p.frac.length)

/-- The text is that of a float of the given value. -/
structure NumberParts.Writes (p : NumberParts) (text : Str) (x : ℚ) : Prop where
  valid : p.Valid
  float : p.frac ≠ [] ∨ p.power.isSome
  text : p.text = text
  value : p.value = x

theorem head?_append_left {s t : Str} (hne : s ≠ []) : (s ++ t).head? = s.head? := by
  cases s with
  | nil => exact absurd rfl hne
  | cons c s => rfl

/-- The point before the digits. -/
theorem placePoint_small (hds : IsDigits ds) (hne : ds ≠ []) (k : ℕ)
    (hk : point = -(k : Int)) :
    NumberParts.Writes ⟨str "0",List.replicate k (chr '0') ++ ds,none⟩
      (str "0." ++ List.replicate k (chr '0') ++ ds)
      (ofDigits (digitValues ds) * 10 ^ (point - ds.length)) := by
  have hfrac : List.replicate k (chr '0') ++ ds ≠ [] := by simp [hne]
  refine ⟨⟨.zero,(isDigits_zeros k).append hds,by simp⟩,.inl hfrac,?_,?_⟩
  · simp only [NumberParts.text,fracText,if_neg hfrac,powerText,List.append_nil]
    rw [← List.append_assoc,← List.append_assoc]
    rfl
  · unfold NumberParts.value NumberParts.exponent
    simp only [digitValues_append,digitValues_zeros,List.length_append,List.length_replicate]
    have hzero : digitValues (str "0") = List.replicate 1 0 := rfl
    rw [hzero,← List.append_assoc,List.replicate_append_replicate,ofDigits_append,ofDigits_zeros,
      zero_mul,zero_add,hk]
    congr 2
    push_cast
    ring

/-- The point behind the digits. -/
theorem placePoint_whole (hds : IsDigits ds) (hne : ds ≠ []) (hhead : ds.head? ≠ some (chr '0'))
    (k : ℕ) (hk : point = ds.length + (k : Int)) :
    NumberParts.Writes ⟨ds ++ List.replicate k (chr '0'),str "0",none⟩
      (ds ++ List.replicate k (chr '0') ++ str ".0")
      (ofDigits (digitValues ds) * 10 ^ (point - ds.length)) := by
  have hzero : IsDigits (str "0") := by
    intro c hc
    rw [List.mem_singleton.mp hc]
    decide
  refine ⟨⟨isWhole_of_digits (hds.append (isDigits_zeros k)) (by simp [hne]) ?_,hzero,by simp⟩,
    .inl (show str "0" ≠ [] by decide),?_,?_⟩
  · rw [head?_append_left hne]
    exact hhead
  · simp only [NumberParts.text,powerText,List.append_nil]
    rfl
  · unfold NumberParts.value NumberParts.exponent
    have hvalues : digitValues (str "0") = List.replicate 1 0 := rfl
    have hlength : (str "0").length = 1 := rfl
    simp only [digitValues_append,digitValues_zeros,hvalues,hlength]
    rw [List.append_assoc,List.replicate_append_replicate,ofDigits_append,ofDigits_zeros,
      List.length_replicate,add_zero,hk]
    push_cast
    rw [show (ds.length : Int) + k - ds.length = (k : Int) by ring,zpow_natCast,pow_succ]
    norm_num
    ring

/-- The point between the digits. -/
theorem placePoint_between (hds : IsDigits ds) (hhead : ds.head? ≠ some (chr '0')) {k : ℕ}
    (hk : point = (k : Int)) (hpos : 0 < k) (hlt : k < ds.length) :
    NumberParts.Writes ⟨ds.take k,ds.drop k,none⟩ (ds.take k ++ str "." ++ ds.drop k)
      (ofDigits (digitValues ds) * 10 ^ (point - ds.length)) := by
  have hdrop : ds.drop k ≠ [] := by
    intro h
    have := congrArg List.length h
    rw [List.length_drop,List.length_nil] at this
    omega
  have htake : ds.take k ≠ [] := by
    intro h
    have := congrArg List.length h
    rw [List.length_take,List.length_nil] at this
    omega
  refine ⟨⟨isWhole_of_digits (hds.subset (List.take_subset k ds)) htake ?_,
    hds.subset (List.drop_subset k ds),by simp⟩,.inl hdrop,?_,?_⟩
  · rw [← head?_append_left (t := ds.drop k) htake,List.take_append_drop]
    exact hhead
  · simp only [NumberParts.text,fracText,if_neg hdrop,powerText,List.append_nil]
    rw [← List.append_assoc]
  · unfold NumberParts.value NumberParts.exponent
    simp only
    rw [← digitValues_append,List.take_append_drop,List.length_drop,hk]
    congr 2
    omega

/-- The digits with a power of ten. -/
theorem placePoint_power (hds : IsDigits ds) (hne : ds ≠ []) (hhead : ds.head? ≠ some (chr '0')) :
    NumberParts.Writes ⟨ds.take 1,ds.drop 1,some (decide (¬ 1 ≤ point),
        (if (point - 1).natAbs < 10 then str "0" else []) ++ decimal (point - 1).natAbs)⟩
      (ds.take 1 ++ (if ds.length ≤ 1 then [] else str "." ++ ds.drop 1) ++
        str (if 1 ≤ point then "e+" else "e-") ++
        (if (point - 1).natAbs < 10 then str "0" else []) ++ decimal (point - 1).natAbs)
      (ofDigits (digitValues ds) * 10 ^ (point - ds.length)) := by
  have htake : ds.take 1 ≠ [] := by simp [hne]
  have hpad : IsDigits (if (point - 1).natAbs < 10 then str "0" else []) := by
    split
    · intro c hc
      rw [List.mem_singleton.mp hc]
      decide
    · intro c hc
      cases hc
  have hpadded : ofDigits (digitValues ((if (point - 1).natAbs < 10 then str "0" else []) ++
      decimal (point - 1).natAbs)) = (point - 1).natAbs := by
    rw [digitValues_append,ofDigits_append,ofDigits_decimal]
    split
    · simp [ofDigits,digitValues,str]
    · simp [ofDigits,digitValues]
  refine ⟨⟨isWhole_of_digits (hds.subset (List.take_subset 1 ds)) htake ?_,
    hds.subset (List.drop_subset 1 ds),?_⟩,.inr rfl,?_,?_⟩
  · rw [← head?_append_left (t := ds.drop 1) htake,List.take_append_drop]
    exact hhead
  · rintro x hx
    obtain rfl := Option.mem_some_iff.mp hx
    exact ⟨hpad.append (isDigits_decimal _),by simp [decimal_ne_nil]⟩
  · have hfrac : fracText (ds.drop 1) = if ds.length ≤ 1 then [] else str "." ++ ds.drop 1 := by
      unfold fracText
      simp only [List.drop_eq_nil_iff]
    have hsign : str (if decide (¬ 1 ≤ point) = true then "e-" else "e+") =
        str (if 1 ≤ point then "e+" else "e-") := by
      by_cases h : 1 ≤ point
      · simp [h]
      · simp [h]
    simp only [NumberParts.text,powerText,hfrac,hsign,List.append_assoc]
  · unfold NumberParts.value NumberParts.exponent
    simp only
    rw [hpadded,← digitValues_append,List.take_append_drop,List.length_drop]
    have hlength : 1 ≤ ds.length := List.length_pos_iff.mpr hne
    congr 2
    split
    · rename_i hneg
      have hlt := of_decide_eq_true hneg
      omega
    · rename_i hneg
      have hle : 1 ≤ point := by simpa using hneg
      omega

/-- The digits with their point are a number of the value that they have with it. -/
theorem placePoint_writes (hds : IsDigits ds) (hne : ds ≠ []) (hhead : ds.head? ≠ some (chr '0'))
    (point : Int) : ∃ p : NumberParts, p.Writes (placePoint ds point)
      (ofDigits (digitValues ds) * 10 ^ (point - ds.length)) := by
  unfold placePoint
  split
  · split
    · exact ⟨_,placePoint_small hds hne (-point).toNat (by omega)⟩
    · split
      · rename_i hle
        exact ⟨_,placePoint_whole hds hne hhead (point.toNat - ds.length) (by omega)⟩
      · exact ⟨_,placePoint_between hds hhead (show point = (point.toNat : Int) by omega) (by omega)
          (by omega)⟩
  · exact ⟨_,placePoint_power hds hne hhead⟩

end Placing

section Floats
variable {limit depth : ℕ} {q : ℚ} {negative : Bool}

theorem ten_pow_le {n : ℕ} (hn : n ≠ 0) : 10 ^ (n.log2 * 3 / 10) ≤ n := by
  have hlow : 2 ^ n.log2 ≤ n := Nat.log2_self_le hn
  have hpow : (10 ^ (n.log2 * 3 / 10)) ^ 10 ≤ n ^ 10 := by
    calc (10 ^ (n.log2 * 3 / 10)) ^ 10 = 10 ^ (n.log2 * 3 / 10 * 10) := by rw [pow_mul]
      _ ≤ 10 ^ (n.log2 * 3) := Nat.pow_le_pow_right (by decide) (Nat.div_mul_le_self _ _)
      _ = (10 ^ 3) ^ n.log2 := by rw [mul_comm,pow_mul]
      _ ≤ (2 ^ 10) ^ n.log2 := Nat.pow_le_pow_left (by decide) _
      _ = (2 ^ n.log2) ^ 10 := by rw [← pow_mul,← pow_mul,mul_comm]
      _ ≤ n ^ 10 := Nat.pow_le_pow_left hlow 10
  exact (Nat.pow_le_pow_iff_left (by decide)).mp hpow

theorem float_top : (2 : ℚ) ^ (1025 : Int) ≤ 10 ^ (310 : Int) := by
  have h : (2 : ℚ) ^ 205 ≤ 10 ^ 62 := by norm_num
  rw [show (1025 : Int) = ((205 * 5 : ℕ) : Int) by norm_num,
    show (310 : Int) = ((62 * 5 : ℕ) : Int) by norm_num,zpow_natCast,zpow_natCast,pow_mul,pow_mul]
  exact pow_le_pow_left₀ (by positivity) h 5

theorem float_least : (10 : ℚ) ^ (-330 : Int) ≤ 2 ^ (-1076 : Int) := by
  have h : (2 : ℚ) ^ 216 ≤ 10 ^ 66 := by norm_num
  have hpow : (2 : ℚ) ^ 1076 ≤ 10 ^ 330 := by
    calc (2 : ℚ) ^ 1076 ≤ 2 ^ 1080 := pow_le_pow_right₀ (by norm_num) (by norm_num)
      _ = (2 ^ 216) ^ 5 := by rw [← pow_mul]
      _ ≤ (10 ^ 66) ^ 5 := pow_le_pow_left₀ (by positivity) h 5
      _ = 10 ^ 330 := by rw [← pow_mul]
  rw [show (-330 : Int) = -((330 : ℕ) : Int) by norm_num,
    show (-1076 : Int) = -((1076 : ℕ) : Int) by norm_num,zpow_neg,zpow_neg,zpow_natCast,zpow_natCast]
  exact inv_anti₀ (by positivity) hpow

/-- A literal that rounds to a positive float is not taken for one out of range. -/
theorem floatOfLiteral_eq {digits frac : List ℕ} {exponent : Int} (hq : 0 < q)
    (hdigits : ∀ d ∈ digits ++ frac, d < 10)
    (h : roundMagnitude false (ofDigits (digits ++ frac) * 10 ^ (exponent - frac.length)) =
      .finite false q) : floatOfLiteral negative digits frac exponent = .finite negative q := by
  unfold floatOfLiteral
  dsimp only
  generalize hscale : exponent - (frac.length : Int) = scale at h ⊢
  generalize hsig : digits ++ frac = all at h hdigits ⊢
  have hlt := ofDigits_lt hdigits
  generalize ofDigits all = n at h hlt ⊢
  have hn : n ≠ 0 := by
    rintro rfl
    rw [Nat.cast_zero,zero_mul] at h
    unfold roundMagnitude at h
    rw [if_pos rfl] at h
    injection h with _ hzero
    exact hq.ne hzero
  have hpos : (0 : ℚ) < n * 10 ^ scale :=
    mul_pos (by exact_mod_cast Nat.pos_of_ne_zero hn) (ten_pos scale)
  have hhigh : ¬ 310 < (n.log2 : Int) * 3 / 10 + scale := by
    intro hbig
    have hbelow := lt_of_rounds hpos h
    have hle : (10 : ℚ) ^ (310 : Int) ≤ n * 10 ^ scale := by
      calc (10 : ℚ) ^ (310 : Int) ≤ 10 ^ (((n.log2 * 3 / 10 : ℕ) : Int) + scale) :=
            zpow_le_zpow_right₀ (by norm_num) (by push_cast; omega)
        _ = (10 : ℚ) ^ (n.log2 * 3 / 10) * 10 ^ scale := by
          rw [zpow_add₀ (by norm_num),zpow_natCast]
        _ ≤ n * 10 ^ scale := by
          refine mul_le_mul_of_nonneg_right ?_ (ten_pos scale).le
          exact_mod_cast ten_pow_le hn
    exact absurd (hle.trans_lt hbelow) (not_lt.mpr float_top)
  have hlow : ¬ ((all.length : Int) + scale < -330) := by
    intro hsmall
    have hbelow : (n : ℚ) * 10 ^ scale < 10 ^ (-330 : Int) := by
      calc (n : ℚ) * 10 ^ scale < (10 : ℚ) ^ (all.length : Int) * 10 ^ scale := by
            refine mul_lt_mul_of_pos_right ?_ (ten_pos scale)
            rw [zpow_natCast]
            exact_mod_cast hlt
        _ = 10 ^ ((all.length : Int) + scale) := (zpow_add₀ (by norm_num) _ _).symm
        _ ≤ 10 ^ (-330 : Int) := zpow_le_zpow_right₀ (by norm_num) hsmall.le
    have hzero := rounds_to_zero hpos (hbelow.trans_le float_least)
    rw [hzero] at h
    injection h with _ hq'
    exact hq.ne hq'
  rw [if_neg hn,if_neg hhigh,if_neg hlow]
  split
  · rename_i hscale
    obtain ⟨k,rfl⟩ := Int.eq_ofNat_of_zero_le hscale
    have hcast : ((n * 10 ^ (k : Int).toNat : ℕ) : ℚ) = n * 10 ^ (k : Int) := by
      rw [zpow_natCast,Int.toNat_natCast]
      push_cast
      rfl
    rw [hcast]
    exact roundMagnitude_signed h
  · rename_i hscale
    obtain ⟨k,hk⟩ := Int.eq_ofNat_of_zero_le (show 0 ≤ -scale by omega)
    obtain rfl : scale = -(k : Int) := by omega
    have hcast : (n : ℚ) / ((10 ^ (- -(k : Int)).toNat : ℕ) : ℚ) = n * 10 ^ (-(k : Int)) := by
      rw [neg_neg,Int.toNat_natCast,zpow_neg,zpow_natCast,div_eq_mul_inv]
      push_cast
      rfl
    rw [hcast]
    exact roundMagnitude_signed h

/-- The text of a float is a number that is rounded to the float. -/
theorem reprFloat_writes (hf : IsFloat q) (hq : 0 ≤ q) (negative : Bool) : ∃ p : NumberParts, p.Valid ∧
    (p.frac ≠ [] ∨ p.power.isSome) ∧ reprFloat (.finite negative q) = signed negative p.text ∧
    floatOfLiteral negative (digitValues p.whole) (digitValues p.frac) p.exponent =
      .finite negative q := by
  unfold reprFloat signed
  dsimp only
  rcases hq.eq_or_lt with rfl | hq
  · refine ⟨⟨str "0",str "0",none⟩,⟨.zero,?_,by simp⟩,.inl (by decide),?_,?_⟩
    · intro c hc
      rw [List.mem_singleton.mp hc]
      decide
    · rw [if_pos rfl]
      rfl
    · rfl
  · rw [if_neg hq.ne']
    have hreads := shortestDigits_reads hf hq (decimalPoint_le hq) 17 1 (by decide) rfl
    generalize shortestDigits q (decimalPoint q) 17 1 = found at hreads ⊢
    obtain ⟨m,exponent⟩ := found
    dsimp only at hreads ⊢
    have hm : m ≠ 0 := by
      rintro rfl
      rw [Nat.cast_zero,zero_mul] at hreads
      unfold roundMagnitude at hreads
      rw [if_pos rfl] at hreads
      injection hreads with _ hzero
      exact hq.ne hzero
    obtain ⟨k,hk⟩ := exists_trimZeros (decimal m)
    have hdigits : IsDigits (trimZeros (decimal m)) :=
      (isDigits_decimal m).subset (trimZeros_subset (decimal m))
    have hvalue : ofDigits (digitValues (trimZeros (decimal m))) * 10 ^ k = m := by
      have h := ofDigits_decimal m
      rw [hk,digitValues_append,digitValues_zeros,ofDigits_append,ofDigits_zeros,
        List.length_replicate,add_zero] at h
      exact h
    have hne : trimZeros (decimal m) ≠ [] := by
      intro h
      rw [h] at hvalue
      exact hm (by simpa [digitValues,ofDigits] using hvalue.symm)
    have hhead : (trimZeros (decimal m)).head? ≠ some (chr '0') := by
      have h := decimal_head hm
      rw [hk,head?_append_left hne] at h
      exact h
    have hlength : (decimal m).length = (trimZeros (decimal m)).length + k := by
      have h := congrArg List.length hk
      rwa [List.length_append,List.length_replicate] at h
    obtain ⟨p,hp⟩ := placePoint_writes hdigits hne hhead (exponent + (decimal m).length)
    refine ⟨p,hp.valid,hp.float,by rw [hp.text],?_⟩
    refine floatOfLiteral_eq hq ?_ ?_
    · intro d hd
      rcases List.mem_append.mp hd with hd | hd
      · exact hp.valid.whole.isDigits.lt_ten d hd
      · exact hp.valid.frac.lt_ten d hd
    · rw [digitValues_length]
      have hx : p.value = m * 10 ^ exponent := by
        rw [hp.value,hlength]
        have hsplit : (10 : ℚ) ^ (exponent + (((trimZeros (decimal m)).length + k : ℕ) : Int) -
            (trimZeros (decimal m)).length) = 10 ^ k * 10 ^ exponent := by
          rw [← zpow_natCast,← zpow_add₀ (by norm_num)]
          congr 1
          push_cast
          ring
        rw [hsplit,← mul_assoc]
        congr 1
        exact_mod_cast hvalue
      rw [← hreads,← hx]
      rfl

/-- A float is read back from the fewest digits that single it out. -/
theorem readsValue_float (hf : IsFloat q) (hq : 0 ≤ q) :
    ReadsValue limit depth (reprFloat (.finite negative q)) (.float (.finite negative q)) := by
  obtain ⟨p,hvalid,hfloat,htext,hvalue⟩ := reprFloat_writes hf hq negative
  rw [htext,← hvalue]
  exact NumberParts.readsValue hvalid hfloat

end Floats

end Woodhouse.Python
