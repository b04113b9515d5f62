import Woodhouse.Python.DumpsUtf8

namespace Woodhouse.Python

/-- `b.decode("utf-8")`. -/
def decodeUtf8Strict (b : Bytes) : Except PyExc Str :=
  match decodeUtf8 b with
  | some s => if s.any isSurrogate then .error .unicodeDecodeError else .ok s
  | none => .error .unicodeDecodeError

theorem decodeUtf8Strict_raises (b : Bytes) : RaisesOnly (· = .unicodeDecodeError) (decodeUtf8Strict b) := by
  unfold decodeUtf8Strict
  repeat' split
  all_goals simp

section RoundTrip
variable {m : Nat} {c : CodePoint} {s t : Str} {rest : Bytes}

theorem toNat_byte (h : m < 256) : (UInt8.ofNat m).toNat = m := by
  rw [UInt8.toNat_ofNat',Nat.mod_eq_of_lt (by omega)]

theorem continuation_byte (h : m < 64) : continuation (UInt8.ofNat (0x80 + m)) = some m := by
  unfold continuation
  rw [toNat_byte (by omega),if_pos (by omega),Nat.add_sub_cancel_left]

theorem codePoint_val (c : CodePoint) : codePoint c.val = some c := by
  unfold codePoint
  rw [dif_pos c.isLt]

/-- The bytes of a character are read as that character. -/
theorem decodeUtf8_cons : decodeUtf8 (utf8Bytes c ++ rest) = (decodeUtf8 rest).map (fun s => c :: s) := by
  have hmax := c.isLt
  unfold utf8Bytes
  dsimp only
  split
  · rename_i h
    have hc : (Fin.ofNat 0x110000 c.val : CodePoint) = c := Fin.ext (Nat.mod_eq_of_lt hmax)
    change decodeUtf8 (UInt8.ofNat c.val :: rest) = _
    rw [decodeUtf8.eq_def]
    dsimp only
    rw [toNat_byte (show c.val < 256 by omega),if_pos h,hc]
  · split
    · change decodeUtf8 (UInt8.ofNat (0xC0 + c.val / 64) :: UInt8.ofNat (0x80 + c.val % 64) :: rest) = _
      have hpoint : utf8Point 0x80 (c.val / 64) [UInt8.ofNat (0x80 + c.val % 64)] = some c := by
        have hn : 64 * (c.val / 64) + c.val % 64 = c.val := by omega
        simp only [utf8Point,List.mapM_cons,List.mapM_nil,continuation_byte (Nat.mod_lt c.val (show 0 < 64 by decide)),
          Option.pure_def,Option.bind_eq_bind,Option.bind_some,List.foldl_cons,List.foldl_nil,hn]
        rw [if_pos (by omega),codePoint_val]
      rw [decodeUtf8.eq_def]
      dsimp only
      rw [toNat_byte (by omega),if_neg (by omega)]
      rw [if_pos (by omega),Nat.add_sub_cancel_left,hpoint]
      rfl
    · split
      · change decodeUtf8 (UInt8.ofNat (0xE0 + c.val / 4096) :: UInt8.ofNat (0x80 + c.val / 64 % 64) ::
          UInt8.ofNat (0x80 + c.val % 64) :: rest) = _
        have hpoint : utf8Point 0x800 (c.val / 4096)
            [UInt8.ofNat (0x80 + c.val / 64 % 64),UInt8.ofNat (0x80 + c.val % 64)] = some c := by
          have hn : 64 * (64 * (c.val / 4096) + c.val / 64 % 64) + c.val % 64 = c.val := by omega
          simp only [utf8Point,List.mapM_cons,List.mapM_nil,continuation_byte (Nat.mod_lt _ (show 0 < 64 by decide)),
            Option.pure_def,Option.bind_eq_bind,Option.bind_some,List.foldl_cons,List.foldl_nil,hn]
          rw [if_pos (by omega),codePoint_val]
        rw [decodeUtf8.eq_def]
        dsimp only
        rw [toNat_byte (by omega),if_neg (by omega)]
        rw [if_neg (by omega),if_pos (by omega),Nat.add_sub_cancel_left,hpoint]
        rfl
      · change decodeUtf8 (UInt8.ofNat (0xF0 + c.val / 262144) :: UInt8.ofNat (0x80 + c.val / 4096 % 64) ::
          UInt8.ofNat (0x80 + c.val / 64 % 64) :: UInt8.ofNat (0x80 + c.val % 64) :: rest) = _
        have hpoint : utf8Point 0x10000 (c.val / 262144) [UInt8.ofNat (0x80 + c.val / 4096 % 64),
            UInt8.ofNat (0x80 + c.val / 64 % 64),UInt8.ofNat (0x80 + c.val % 64)] = some c := by
          have hn : 64 * (64 * (64 * (c.val / 262144) + c.val / 4096 % 64) + c.val / 64 % 64) +
              c.val % 64 = c.val := by omega
          simp only [utf8Point,List.mapM_cons,List.mapM_nil,continuation_byte (Nat.mod_lt _ (show 0 < 64 by decide)),
            Option.pure_def,Option.bind_eq_bind,Option.bind_some,List.foldl_cons,List.foldl_nil,hn]
          rw [if_pos (by omega),codePoint_val]
        rw [decodeUtf8.eq_def]
        dsimp only
        rw [toNat_byte (by omega),if_neg (by omega)]
        rw [if_neg (by omega),if_neg (by omega),if_pos (by omega),Nat.add_sub_cancel_left,hpoint]
        rfl

theorem decodeUtf8_flatMap (s : Str) : decodeUtf8 (s.flatMap utf8Bytes) = some s := by
  induction s with
  | nil => rfl
  | cons c s ih =>
    rw [List.flatMap_cons,decodeUtf8_cons,ih]
    rfl

/-- What `encode` writes, `decode` reads. -/
theorem decodeUtf8Strict_encode {b : Bytes} (h : encodeUtf8 s = .ok b) : decodeUtf8Strict b = .ok s := by
  obtain ⟨hunicode,rfl⟩ := encodeUtf8_eq_ok.mp h
  have hany : s.any isSurrogate = false := by
    rw [List.any_eq_false]
    intro c hc
    rw [hunicode c hc]
    exact Bool.false_ne_true
  unfold decodeUtf8Strict
  rw [decodeUtf8_flatMap]
  dsimp only
  rw [hany,if_neg Bool.false_ne_true]

/-- Different strings are encoded differently. -/
theorem encodeUtf8_injective {b : Bytes} (hs : encodeUtf8 s = .ok b) (ht : encodeUtf8 t = .ok b) : s = t :=
  Except.ok.inj ((decodeUtf8Strict_encode hs).symm.trans (decodeUtf8Strict_encode ht))

theorem encodeUtf8_raises (s : Str) : RaisesOnly (· = .unicodeEncodeError) (encodeUtf8 s) := by
  unfold encodeUtf8
  split
  · simp
  · simp

end RoundTrip

end Woodhouse.Python
