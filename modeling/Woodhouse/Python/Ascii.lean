import Mathlib.Data.List.Sort
import Woodhouse.Python.Dumps

namespace Woodhouse.Python

section Parts
variable {s t : Str}

@[simp] theorem isAscii_nil : isAscii [] = true := rfl

@[simp] theorem isAscii_append : isAscii (s ++ t) = (isAscii s && isAscii t) := List.all_append

@[simp] theorem isAscii_cons {c : CodePoint} :
    isAscii (c :: s) = (decide (c.val < 128) && isAscii s) := rfl

theorem isAscii_iff : isAscii s = true ↔ ∀ c ∈ s, c.val < 128 := by
  unfold isAscii
  simp

theorem isAscii_subset (h : isAscii s = true) (hsub : t ⊆ s) : isAscii t = true := by
  rw [isAscii_iff] at h ⊢
  exact fun c hc => h c (hsub hc)

theorem isAscii_flatMap {α : Type} {l : List α} {f : α → Str} (h : ∀ a ∈ l, isAscii (f a) = true) :
    isAscii (l.flatMap f) = true := by
  rw [isAscii_iff]
  intro c hc
  obtain ⟨a,ha,hc⟩ := List.mem_flatMap.mp hc
  exact isAscii_iff.mp (h a ha) c hc

end Parts

section Digits

/-- The characters of a decimal number are the digits. -/
theorem decimal_digit {n : Nat} {c : CodePoint} (h : c ∈ decimal n) : 48 ≤ c.val ∧ c.val ≤ 57 := by
  obtain ⟨d,hd,rfl⟩ := List.mem_map.mp h
  have hdigit := Nat.isDigit_of_mem_toDigits (by decide) (by decide) hd
  simp only [Char.isDigit,Bool.and_eq_true,decide_eq_true_eq] at hdigit
  have hlow : 48 ≤ d.toNat := UInt32.le_iff_toNat_le.mp hdigit.1
  have hhigh : d.toNat ≤ 57 := UInt32.le_iff_toNat_le.mp hdigit.2
  unfold chr
  rw [Fin.val_ofNat,Nat.mod_eq_of_lt (by omega)]
  exact ⟨hlow,hhigh⟩

theorem isAscii_decimal (n : Nat) : isAscii (decimal n) = true := by
  rw [isAscii_iff]
  intro c hc
  have := decimal_digit hc
  omega

theorem isAscii_replicate_zero (n : Nat) : isAscii (List.replicate n (chr '0')) = true := by
  rw [isAscii_iff]
  intro c hc
  rw [List.eq_of_mem_replicate hc]
  decide

theorem isAscii_placePoint {digits : Str} (h : isAscii digits = true) (point : Int) :
    isAscii (placePoint digits point) = true := by
  have htake : ∀ n, isAscii (digits.take n) = true := fun n => isAscii_subset h (List.take_subset n _)
  have hdrop : ∀ n, isAscii (digits.drop n) = true := fun n => isAscii_subset h (List.drop_subset n _)
  have hdot : isAscii (str ".") = true := by decide
  unfold placePoint
  split
  · split
    · have : isAscii (str "0.") = true := by decide
      simp [this,isAscii_replicate_zero,h]
    · split
      · have : isAscii (str ".0") = true := by decide
        simp [this,isAscii_replicate_zero,h]
      · simp [htake,hdrop,hdot]
  · have hsign : ∀ b : Prop, [Decidable b] → isAscii (str (if b then "e+" else "e-")) = true := by
      intro b _
      split <;> decide
    have hzero : isAscii (str "0") = true := by decide
    have hfraction : isAscii (if digits.length ≤ 1 then [] else str "." ++ digits.drop 1) = true := by
      split
      · rfl
      · rw [isAscii_append,hdot,hdrop]
        rfl
    have hpad : isAscii (if (point - 1).natAbs < 10 then str "0" else []) = true := by
      split
      · exact hzero
      · rfl
    dsimp only
    rw [isAscii_append,isAscii_append,isAscii_append,isAscii_append,htake,hfraction,hsign,hpad,
      isAscii_decimal]
    rfl

theorem trimZeros_subset (digits : Str) : trimZeros digits ⊆ digits := by
  intro c hc
  unfold trimZeros at hc
  rw [List.mem_reverse] at hc
  exact List.mem_reverse.mp ((List.dropWhile_sublist _).subset hc)

theorem isAscii_reprFloat (x : PyFloat) : isAscii (reprFloat x) = true := by
  cases x with
  | nan => decide
  | inf negative => cases negative <;> decide
  | finite negative q =>
    have hbody : ∀ body : Str, isAscii body = true →
        isAscii (if negative then chr '-' :: body else body) = true := by
      intro body h
      split
      · rw [isAscii_cons,h]
        decide
      · exact h
    apply hbody
    split
    · decide
    · exact isAscii_placePoint (isAscii_subset (isAscii_decimal _) (trimZeros_subset _)) _

theorem isAscii_reprInt (i : Int) : isAscii (reprInt i) = true := by
  unfold reprInt
  split
  · rw [isAscii_cons,isAscii_decimal]
    decide
  · exact isAscii_decimal _

end Digits

section Strings

theorem isAscii_unicodeEscape (n : Nat) : isAscii (unicodeEscape n) = true := by
  have hhex : isAscii (hexDigits n) = true := by
    rw [isAscii_iff]
    intro c hc
    obtain ⟨d,hd,rfl⟩ := List.mem_map.mp hc
    have hlt : d < 16 := by
      simp only [List.mem_cons,List.not_mem_nil,or_false] at hd
      omega
    rw [Fin.val_ofNat]
    split
    · rw [Nat.mod_eq_of_lt (by omega)]
      omega
    · rw [Nat.mod_eq_of_lt (by omega)]
      omega
  unfold unicodeEscape
  rw [isAscii_append,hhex]
  decide

theorem isAscii_escape (c : CodePoint) : isAscii (escape c) = true := by
  unfold escape
  repeat' split
  all_goals first | decide | skip
  · rename_i h
    simp only [isAscii_cons,isAscii_nil,Bool.and_true,decide_eq_true_eq]
    omega
  · exact isAscii_unicodeEscape _
  · simp [isAscii_unicodeEscape]

theorem isAscii_dumpStr (s : Str) : isAscii (dumpStr s) = true := by
  have hquote : isAscii (str "\"") = true := by decide
  unfold dumpStr
  simp [hquote,isAscii_flatMap (fun c _ => isAscii_escape c)]

theorem isAscii_commaSeparated {texts : List Str} (h : ∀ t ∈ texts, isAscii t = true) :
    isAscii (commaSeparated texts) = true := by
  induction texts with
  | nil => rfl
  | cons t rest ih =>
    have ht := h t List.mem_cons_self
    have hrest := ih (fun u hu => h u (List.mem_cons_of_mem _ hu))
    cases rest with
    | nil => simpa [commaSeparated] using ht
    | cons u rest =>
      have hcomma : isAscii (str ",") = true := by decide
      unfold commaSeparated at hrest ⊢
      rw [List.intersperse_cons_cons,List.flatten_cons,List.flatten_cons]
      simp [ht,hcomma,hrest]

end Strings

mutual

/-- The text of `json.dumps` is ASCII. -/
theorem isAscii_dumps (v : Json) : isAscii (dumps v) = true := by
  cases v with
  | null => decide
  | bool b => cases b <;> decide
  | int i => exact isAscii_reprInt i
  | float x => exact isAscii_reprFloat x
  | str s => exact isAscii_dumpStr s
  | arr items =>
    have hopen : isAscii (str "[") = true := by decide
    have hclose : isAscii (str "]") = true := by decide
    unfold dumps
    simp [hopen,hclose,isAscii_commaSeparated (isAscii_dumpItems items)]
  | obj entries =>
    have hopen : isAscii (str "\x7b") = true := by decide
    have hclose : isAscii (str "\x7d") = true := by decide
    have hcolon : isAscii (str ":") = true := by decide
    have hentries := isAscii_dumpEntries entries
    unfold dumps
    dsimp only
    rw [isAscii_append,isAscii_append,hopen,hclose,isAscii_commaSeparated]
    · rfl
    · intro t ht
      obtain ⟨e,he,rfl⟩ := List.mem_map.mp ht
      have hmem := (List.mergeSort_perm _ _).mem_iff.mp he
      simp [isAscii_dumpStr,hcolon,hentries e hmem]

theorem isAscii_dumpItems (items : List Json) : ∀ t ∈ dumpItems items, isAscii t = true := by
  cases items with
  | nil => exact fun t ht => nomatch ht
  | cons v rest =>
    intro t ht
    rcases List.mem_cons.mp ht with rfl | ht
    · exact isAscii_dumps v
    · exact isAscii_dumpItems rest t ht

theorem isAscii_dumpEntries (entries : List (Str × Json)) :
    ∀ e ∈ dumpEntries entries, isAscii e.2 = true := by
  cases entries with
  | nil => exact fun e he => nomatch he
  | cons entry rest =>
    obtain ⟨key,v⟩ := entry
    intro e he
    rcases List.mem_cons.mp he with rfl | he
    · exact isAscii_dumps v
    · exact isAscii_dumpEntries rest e he

end

end Woodhouse.Python
