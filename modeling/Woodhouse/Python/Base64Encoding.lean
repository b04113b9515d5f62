import Woodhouse.Python.Base64

namespace Woodhouse.Python

/-- The character of the base64 alphabet for six bits. -/
def base64Char (n : Nat) : CodePoint :=
  if n < 26 then Fin.ofNat _ (65 + n)
  else if n < 52 then Fin.ofNat _ (71 + n)
  else if n < 62 then Fin.ofNat _ (n - 4)
  else if n = 62 then chr '+'
  else chr '/'

/-- `base64.b64encode(b).decode("ascii")`. -/
def b64encode : Bytes → Str
  | [] => []
  | [a] => [base64Char (a.toNat / 4),base64Char (a.toNat % 4 * 16),chr '=',chr '=']
  | [a,b] =>
    [base64Char (a.toNat / 4),base64Char (a.toNat % 4 * 16 + b.toNat / 16),
     base64Char (b.toNat % 16 * 4),chr '=']
  | a :: b :: c :: rest =>
    base64Char (a.toNat / 4) :: base64Char (a.toNat % 4 * 16 + b.toNat / 16) ::
      base64Char (b.toNat % 16 * 4 + c.toNat / 64) :: base64Char (c.toNat % 64) :: b64encode rest

theorem base64Char_lt {n : Nat} (h : n < 64) : (base64Char n).val < 128 := by
  unfold base64Char
  repeat' split
  all_goals first | decide | (rw [Fin.val_ofNat,Nat.mod_eq_of_lt (by omega)]; omega)

theorem isAscii_b64encode (b : Bytes) : isAscii (b64encode b) = true := by
  have hpad : (chr '=').val < 128 := by decide
  unfold isAscii
  induction b using b64encode.induct with
  | case1 => rfl
  | case2 a =>
    have ha := a.toNat_lt
    have h₁ := base64Char_lt (n := a.toNat / 4) (by omega)
    have h₂ := base64Char_lt (n := a.toNat % 4 * 16) (by omega)
    simp [b64encode,h₁,h₂,hpad]
  | case3 a b =>
    have ha := a.toNat_lt
    have hb := b.toNat_lt
    have h₁ := base64Char_lt (n := a.toNat / 4) (by omega)
    have h₂ := base64Char_lt (n := a.toNat % 4 * 16 + b.toNat / 16) (by omega)
    have h₃ := base64Char_lt (n := b.toNat % 16 * 4) (by omega)
    simp [b64encode,h₁,h₂,h₃,hpad]
  | case4 a b c rest ih =>
    have ha := a.toNat_lt
    have hb := b.toNat_lt
    have hc := c.toNat_lt
    have h₁ := base64Char_lt (n := a.toNat / 4) (by omega)
    have h₂ := base64Char_lt (n := a.toNat % 4 * 16 + b.toNat / 16) (by omega)
    have h₃ := base64Char_lt (n := b.toNat % 16 * 4 + c.toNat / 64) (by omega)
    have h₄ := base64Char_lt (n := c.toNat % 64) (by omega)
    simp only [b64encode,List.all_cons,h₁,h₂,h₃,h₄,decide_true,Bool.true_and]
    exact ih

section RoundTrip
variable {n i j k l : Nat} {out : Bytes}

theorem base64Index_char (h : n < 64) : base64Index (base64Char n) = some n := by
  unfold base64Char
  split
  · unfold base64Index
    rw [Fin.val_ofNat,Nat.mod_eq_of_lt (by omega),if_pos (by omega)]
    simp
  · split
    · unfold base64Index
      rw [Fin.val_ofNat,Nat.mod_eq_of_lt (by omega),if_neg (by omega),if_pos (by omega)]
      simp
    · split
      · unfold base64Index
        rw [Fin.val_ofNat,Nat.mod_eq_of_lt (by omega),if_neg (by omega),if_neg (by omega),
          if_pos (by omega)]
        exact congrArg some (by omega)
      · split
        · rename_i h62
          subst h62
          rfl
        · obtain rfl : n = 63 := by omega
          rfl

theorem base64Index_ne {c : CodePoint} (h : base64Index c = some n) : c ≠ chr '=' := by
  rintro rfl
  cases h

/-- The decoder takes a character of the alphabet. -/
theorem Base64Decoder.step_char (s : Base64Decoder) (hcomplete : s.complete = false)
    (hpadding : s.paddingStarted = false) (h : n < 64) : s.step (base64Char n) = .ok (s.take n) := by
  have hindex := base64Index_char h
  unfold Base64Decoder.step
  rw [hcomplete,if_neg Bool.false_ne_true,if_neg (base64Index_ne hindex),hindex,hpadding]
  rfl

/-- Four characters of the alphabet are three bytes. -/
theorem run_quad (rest : Str) (hi : i < 64) (hj : j < 64) (hk : k < 64) (hl : l < 64) :
    (base64Char i :: base64Char j :: base64Char k :: base64Char l :: rest).foldlM
      Base64Decoder.step { out } = rest.foldlM Base64Decoder.step
        { out := out ++ [UInt8.ofNat (4 * i + j / 16),UInt8.ofNat (16 * (j % 16) + k / 4),
                         UInt8.ofNat (64 * (k % 4) + l)] } := by
  rw [List.foldlM_cons,Base64Decoder.step_char _ rfl rfl hi]
  change List.foldlM Base64Decoder.step _ (base64Char j :: _) = _
  rw [List.foldlM_cons,Base64Decoder.step_char _ rfl rfl hj]
  change List.foldlM Base64Decoder.step _ (base64Char k :: _) = _
  rw [List.foldlM_cons,Base64Decoder.step_char _ rfl rfl hk]
  change List.foldlM Base64Decoder.step _ (base64Char l :: _) = _
  rw [List.foldlM_cons,Base64Decoder.step_char _ rfl rfl hl]
  simp [Base64Decoder.take]
  rfl

theorem run_pad_two (hi : i < 64) (hj : j < 64) : ([base64Char i,base64Char j,chr '=',chr '='].foldlM
    Base64Decoder.step { out } >>= Base64Decoder.finish) =
      .ok (out ++ [UInt8.ofNat (4 * i + j / 16)]) := by
  rw [List.foldlM_cons,Base64Decoder.step_char _ rfl rfl hi]
  change (List.foldlM Base64Decoder.step _ (base64Char j :: _) >>= _) = _
  rw [List.foldlM_cons,Base64Decoder.step_char _ rfl rfl hj]
  rfl

theorem run_pad_one (hi : i < 64) (hj : j < 64) (hk : k < 64) :
    ([base64Char i,base64Char j,base64Char k,chr '='].foldlM Base64Decoder.step { out } >>=
      Base64Decoder.finish) =
        .ok (out ++ [UInt8.ofNat (4 * i + j / 16),UInt8.ofNat (16 * (j % 16) + k / 4)]) := by
  rw [List.foldlM_cons,Base64Decoder.step_char _ rfl rfl hi]
  change (List.foldlM Base64Decoder.step _ (base64Char j :: _) >>= _) = _
  rw [List.foldlM_cons,Base64Decoder.step_char _ rfl rfl hj]
  change (List.foldlM Base64Decoder.step _ (base64Char k :: _) >>= _) = _
  rw [List.foldlM_cons,Base64Decoder.step_char _ rfl rfl hk]
  simp [Base64Decoder.take]
  rfl

theorem ofNat_eq {a : UInt8} (h : n = a.toNat) : UInt8.ofNat n = a := by
  rw [h]
  exact UInt8.ofNat_toNat

theorem run_b64encode (b : Bytes) (out : Bytes) :
    ((b64encode b).foldlM Base64Decoder.step { out } >>= Base64Decoder.finish) = .ok (out ++ b) := by
  induction b using b64encode.induct generalizing out with
  | case1 =>
    rw [List.append_nil]
    rfl
  | case2 a =>
    have ha := a.toNat_lt
    rw [b64encode,run_pad_two (by omega) (by omega),ofNat_eq (a := a) (by omega)]
  | case3 a b =>
    have ha := a.toNat_lt
    have hb := b.toNat_lt
    rw [b64encode,run_pad_one (by omega) (by omega) (by omega),ofNat_eq (a := a) (by omega),
      ofNat_eq (a := b) (by omega)]
  | case4 a b c rest ih =>
    have ha := a.toNat_lt
    have hb := b.toNat_lt
    have hc := c.toNat_lt
    rw [b64encode,run_quad _ (by omega) (by omega) (by omega) (by omega),ofNat_eq (a := a) (by omega),
      ofNat_eq (a := b) (by omega),ofNat_eq (a := c) (by omega),ih]
    simp

/-- The first character of an encoding is no padding. -/
theorem b64encode_head (b : Bytes) : (b64encode b).head? ≠ some (chr '=') := by
  have hchar : ∀ n, n < 64 → some (base64Char n) ≠ some (chr '=') := by
    intro n hn h
    exact base64Index_ne (base64Index_char hn) (Option.some.inj h)
  cases b using b64encode.fun_cases with
  | case1 => simp [b64encode]
  | case2 a =>
    have ha := a.toNat_lt
    exact hchar _ (by omega)
  | case3 a b =>
    have ha := a.toNat_lt
    exact hchar _ (by omega)
  | case4 a b c rest =>
    have ha := a.toNat_lt
    exact hchar _ (by omega)

theorem b64decode_b64encode (b : Bytes) : b64decode (b64encode b) = .ok b := by
  unfold b64decode
  rw [isAscii_b64encode,Bool.not_true,if_neg Bool.false_ne_true,if_neg (b64encode_head b)]
  exact run_b64encode b []

end RoundTrip

section Urlsafe
variable {b : Bytes}

/-- `base64.urlsafe_b64encode(b).decode("ascii")`. -/
def urlsafeB64encode (b : Bytes) : Str :=
  (b64encode b).map (fun c => if c = chr '+' then chr '-' else if c = chr '/' then chr '_' else c)

/-- `base64.b64decode(s, altchars=b"-_", validate=True)`. -/
def urlsafeB64decode (s : Str) : Except PyExc Bytes :=
  b64decode (s.map (fun c => if c = chr '-' then chr '+' else if c = chr '_' then chr '/' else c))

theorem base64Char_ne (hn : n < 64) : base64Char n ≠ chr '-' ∧ base64Char n ≠ chr '_' := by
  have hindex := base64Index_char hn
  constructor
  · intro h
    rw [h] at hindex
    cases hindex
  · intro h
    rw [h] at hindex
    cases hindex

/-- The standard alphabet and its padding do not hold the two characters of the other one. -/
theorem mem_b64encode {c : CodePoint} (hc : c ∈ b64encode b) : c ≠ chr '-' ∧ c ≠ chr '_' := by
  have hpad : chr '=' ≠ chr '-' ∧ chr '=' ≠ chr '_' := by decide
  have hchar : ∀ n, n < 64 → base64Char n ≠ chr '-' ∧ base64Char n ≠ chr '_' := fun n => base64Char_ne
  induction b using b64encode.induct with
  | case1 => cases hc
  | case2 a =>
    have ha := a.toNat_lt
    simp only [b64encode,List.mem_cons,List.not_mem_nil,or_false] at hc
    rcases hc with rfl | rfl | rfl | rfl
    · exact hchar _ (by omega)
    · exact hchar _ (by omega)
    · exact hpad
    · exact hpad
  | case3 a b =>
    have ha := a.toNat_lt
    have hb := b.toNat_lt
    simp only [b64encode,List.mem_cons,List.not_mem_nil,or_false] at hc
    rcases hc with rfl | rfl | rfl | rfl
    · exact hchar _ (by omega)
    · exact hchar _ (by omega)
    · exact hchar _ (by omega)
    · exact hpad
  | case4 a b c rest ih =>
    have ha := a.toNat_lt
    have hb := b.toNat_lt
    have hc' := c.toNat_lt
    simp only [b64encode,List.mem_cons] at hc
    rcases hc with rfl | rfl | rfl | rfl | hc
    · exact hchar _ (by omega)
    · exact hchar _ (by omega)
    · exact hchar _ (by omega)
    · exact hchar _ (by omega)
    · exact ih hc

theorem urlsafeB64decode_encode (b : Bytes) : urlsafeB64decode (urlsafeB64encode b) = .ok b := by
  have hback : (urlsafeB64encode b).map (fun c => if c = chr '-' then chr '+'
      else if c = chr '_' then chr '/' else c) = b64encode b := by
    unfold urlsafeB64encode
    rw [List.map_map]
    conv_rhs => rw [← List.map_id (b64encode b)]
    apply List.map_congr_left
    intro c hc
    obtain ⟨hminus,hline⟩ := mem_b64encode hc
    simp only [Function.comp_apply,id_eq]
    by_cases hplus : c = chr '+'
    · subst hplus
      decide
    · by_cases hslash : c = chr '/'
      · subst hslash
        decide
      · rw [if_neg hplus,if_neg hslash,if_neg hminus,if_neg hline]
  unfold urlsafeB64decode
  rw [hback,b64decode_b64encode]

end Urlsafe

end Woodhouse.Python
