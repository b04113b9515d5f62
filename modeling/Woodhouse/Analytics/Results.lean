import Woodhouse.Python.Base64Encoding
import Woodhouse.Python.DumpsUtf8

namespace Woodhouse.Analytics
open Python

section Prefixes
variable {α : Type}

/-- The longest prefix of a list that fits. -/
structure LongestPrefix (fits : List α → Prop) (all kept : List α) : Prop where
  isPrefix : kept <+: all
  fitting : fits kept
  longest : ∀ other, other <+: all → fits other → other.length ≤ kept.length

/-- Where the prefixes of what fits fit, a prefix whose next longer one does not fit is
the longest. -/
theorem longestPrefix_of_stop {fits : List α → Prop}
    (closed : ∀ short long, short <+: long → fits long → fits short) {kept rest : List α} {next : α}
    (hfits : fits kept) (hstop : ¬ fits (kept ++ [next])) :
    LongestPrefix fits (kept ++ next :: rest) kept := by
  refine ⟨List.prefix_append kept _,hfits,?_⟩
  intro other hother hfits'
  by_contra hlonger
  have hnext : kept ++ [next] <+: kept ++ next :: rest := ⟨rest,by simp⟩
  apply hstop
  apply closed _ other _ hfits'
  apply List.prefix_of_prefix_length_le hnext hother
  simp only [List.length_append,List.length_singleton]
  omega

theorem longestPrefix_all {fits : List α → Prop} {all : List α} (h : fits all) :
    LongestPrefix fits all all :=
  ⟨List.prefix_refl all,h,fun _ hother _ => hother.length_le⟩

end Prefixes

def maxResultRows : Nat := 1000

def maxResultBytes : Nat := 1048576

/-- A value of a query row. The values that JSON has no form for come with the text that
`isoformat()` or `str()` gives them. -/
inductive Cell where
  | null
  | bool (b : Bool)
  | int (i : Int)
  | float (x : PyFloat)
  | str (s : Str)
  | temporal (isoformat : Str)
  | decimal (text : Str)
  | bytes (b : Bytes)
  | struct (entries : List (Str × Cell))
  | array (items : List Cell)
  | other (text : Str)

/-- The columns of a query row in order. -/
abbrev Row := List (Str × Cell)

mutual

def jsonValue : Cell → Json
  | .null => .null
  | .bool b => .bool b
  | .int i => .int i
  | .float x => .float x
  | .str s => .str s
  | .temporal isoformat => .str isoformat
  | .decimal text => .str text
  | .bytes b => .str (b64encode b)
  | .struct entries => .obj (jsonEntries entries [])
  | .array items => .arr (jsonItems items)
  | .other text => .str text

/-- The entries one after the other; a key that comes again replaces the value. -/
def jsonEntries : List (Str × Cell) → Dict Json → Dict Json
  | [], d => d
  | (key,value) :: rest, d => jsonEntries rest (d.set key (jsonValue value))

def jsonItems : List Cell → List Json
  | [] => []
  | item :: rest => jsonValue item :: jsonItems rest

end

/-- `{str(key): _json_value(value) for key, value in item.items()}`. -/
def serialized (item : Row) : Json := .obj (jsonEntries item [])

/-- The loop, with the rows kept so far and the bytes counted for them. -/
def boundedRowsFrom (rows : List Json) (totalBytes : Nat) :
    List Row → Except PyExc (List Json × Nat × Bool)
  | [] => .ok (rows,totalBytes,false)
  | item :: iterator =>
    if maxResultRows ≤ rows.length then .ok (rows,totalBytes,true)
    else
      match encodeUtf8 (dumpsUtf8 (serialized item)) with
      | .error e => .error e
      | .ok encoded =>
        if maxResultBytes < totalBytes + encoded.length then .ok (rows,totalBytes,true)
        else boundedRowsFrom (rows ++ [serialized item]) (totalBytes + (encoded.length + 1)) iterator

def boundedRows (iterator : List Row) : Except PyExc (List Json × Nat × Bool) :=
  boundedRowsFrom [] 2 iterator

/-- The rows are few enough, and short enough as a compact JSON array in UTF-8. -/
def FitsResult (rows : List Json) : Prop :=
  rows.length ≤ maxResultRows ∧
    ∃ encoded, encodeUtf8 (dumpsUtf8 (.arr rows)) = .ok encoded ∧ encoded.length ≤ maxResultBytes

section Bytes
variable {rows short long : List Json} {row : Json}

/-- What the loop counts for the rows: each with a separator, and the brackets. -/
def countedBytes (rows : List Json) : Nat := 2 + (rows.map (fun v => byteLength (dumpsUtf8 v) + 1)).sum

theorem countedBytes_snoc : countedBytes (rows ++ [row]) = countedBytes rows + (byteLength (dumpsUtf8 row) + 1) := by
  unfold countedBytes
  simp only [List.map_append,List.sum_append,List.map_cons,List.map_nil,List.sum_singleton]
  omega

theorem countedBytes_mono (h : short <+: long) : countedBytes short ≤ countedBytes long := by
  obtain ⟨rest,rfl⟩ := h
  unfold countedBytes
  simp only [List.map_append,List.sum_append]
  omega

theorem byteLength_array (rows : List Json) : byteLength (dumpsUtf8 (.arr rows)) =
    2 + byteLength (commaSeparated (rows.map (fun v => dumpsUtf8 v))) := by
  have hopen : byteLength (str "[") = 1 := by decide
  have hclose : byteLength (str "]") = 1 := by decide
  rw [dumpsUtf8,dumpItemsUtf8_eq,byteLength_append,byteLength_append,hopen,hclose]
  omega

/-- The separator of the last row is counted and not written. -/
theorem byteLength_rows (h : rows ≠ []) : byteLength (dumpsUtf8 (.arr rows)) + 1 = countedBytes rows := by
  have hne : rows.map (fun v => dumpsUtf8 v) ≠ [] := by simpa using h
  have hjoined := byteLength_commaSeparated hne
  rw [List.map_map] at hjoined
  rw [byteLength_array,countedBytes]
  simp only [Function.comp_def] at hjoined
  omega

theorem isUnicode_array : IsUnicode (dumpsUtf8 (.arr rows)) ↔ ∀ row ∈ rows, IsUnicode (dumpsUtf8 row) := by
  have hopen : IsUnicode (str "[") := isUnicode_of_isAscii (by decide)
  have hclose : IsUnicode (str "]") := isUnicode_of_isAscii (by decide)
  rw [dumpsUtf8,dumpItemsUtf8_eq,isUnicode_append,isUnicode_append,isUnicode_commaSeparated]
  simp [hopen,hclose]

theorem fitsResult_iff : FitsResult rows ↔ rows.length ≤ maxResultRows ∧
    (∀ row ∈ rows, IsUnicode (dumpsUtf8 row)) ∧ byteLength (dumpsUtf8 (.arr rows)) ≤ maxResultBytes := by
  unfold FitsResult byteLength
  simp only [encodeUtf8_eq_ok,isUnicode_array]
  constructor
  · rintro ⟨hrows,encoded,⟨hunicode,rfl⟩,hbytes⟩
    exact ⟨hrows,hunicode,hbytes⟩
  · rintro ⟨hrows,hunicode,hbytes⟩
    exact ⟨hrows,_,⟨hunicode,rfl⟩,hbytes⟩

theorem fitsResult_nil : FitsResult [] := by
  rw [fitsResult_iff]
  refine ⟨Nat.zero_le _,?_,by decide⟩
  intro row hrow
  cases hrow

theorem fitsResult_snoc : FitsResult (rows ++ [row]) ↔ rows.length < maxResultRows ∧
    (∀ row' ∈ rows, IsUnicode (dumpsUtf8 row')) ∧ IsUnicode (dumpsUtf8 row) ∧
      countedBytes rows + byteLength (dumpsUtf8 row) ≤ maxResultBytes := by
  have hne : rows ++ [row] ≠ [] := by simp
  have hbytes := byteLength_rows hne
  rw [countedBytes_snoc] at hbytes
  rw [fitsResult_iff,List.length_append,List.length_singleton,List.forall_mem_append]
  constructor
  · rintro ⟨hrows,⟨hunicode,hrow⟩,hmax⟩
    exact ⟨by omega,hunicode,hrow row List.mem_cons_self,by omega⟩
  · rintro ⟨hrows,hunicode,hrow,hmax⟩
    refine ⟨by omega,⟨hunicode,?_⟩,by omega⟩
    intro row' h
    rw [List.mem_singleton.mp h]
    exact hrow

theorem fitsResult_closed (h : short <+: long) (hlong : FitsResult long) : FitsResult short := by
  by_cases hnil : short = []
  · subst hnil
    exact fitsResult_nil
  have hne : long ≠ [] := by
    intro he
    subst he
    exact hnil (List.prefix_nil.mp h)
  rw [fitsResult_iff] at hlong ⊢
  obtain ⟨hrows,hunicode,hmax⟩ := hlong
  have hcounted := countedBytes_mono h
  have hshort := byteLength_rows hnil
  have hbytes := byteLength_rows hne
  exact ⟨h.length_le.trans hrows,fun row hrow => hunicode row (h.subset hrow),by omega⟩

end Bytes

/-- One run of the loop, from rows that fit with their bytes counted. -/
theorem boundedRowsFrom_ok {rows kept : List Json} {totalBytes bytes : Nat} {truncated : Bool}
    {iterator : List Row} (hfits : FitsResult rows) (htotal : totalBytes = countedBytes rows)
    (h : boundedRowsFrom rows totalBytes iterator = .ok (kept,bytes,truncated)) :
    LongestPrefix FitsResult (rows ++ iterator.map serialized) kept ∧
      (truncated = true ↔ kept ≠ rows ++ iterator.map serialized) := by
  have hkept := (fitsResult_iff.mp hfits).2.1
  induction iterator generalizing rows totalBytes with
  | nil =>
    unfold boundedRowsFrom at h
    obtain ⟨rfl,_,rfl⟩ : rows = kept ∧ totalBytes = bytes ∧ false = truncated := by simpa using h
    rw [List.map_nil,List.append_nil]
    exact ⟨longestPrefix_all hfits,by simp⟩
  | cons item iterator ih =>
    have hstopped : ¬ FitsResult (rows ++ [serialized item]) → rows = kept → truncated = true →
        LongestPrefix FitsResult (rows ++ (item :: iterator).map serialized) kept ∧
          (truncated = true ↔ kept ≠ rows ++ (item :: iterator).map serialized) := by
      rintro hstop rfl rfl
      rw [List.map_cons]
      refine ⟨longestPrefix_of_stop (fun _ _ => fitsResult_closed) hfits hstop,iff_of_true rfl ?_⟩
      intro hall
      have := congrArg List.length hall
      simp at this
    unfold boundedRowsFrom at h
    split at h
    · rename_i hfull
      obtain ⟨hrows,_,htruncated⟩ : rows = kept ∧ totalBytes = bytes ∧ true = truncated := by
        simpa using h
      refine hstopped ?_ hrows htruncated.symm
      rw [fitsResult_snoc]
      rintro ⟨hroom,_⟩
      omega
    · rename_i hroom
      split at h
      · cases h
      · rename_i encoded hencoded
        obtain ⟨hunicode,hbytes⟩ := encodeUtf8_eq_ok.mp hencoded
        have hlength : encoded.length = byteLength (dumpsUtf8 (serialized item)) := by
          rw [← hbytes]
          rfl
        rw [hlength] at h
        split at h
        · rename_i hmax
          obtain ⟨hrows,_,htruncated⟩ : rows = kept ∧ totalBytes = bytes ∧ true = truncated := by
            simpa using h
          refine hstopped ?_ hrows htruncated.symm
          rw [fitsResult_snoc]
          rintro ⟨_,_,_,hle⟩
          omega
        · rename_i hmax
          have hnext : FitsResult (rows ++ [serialized item]) := by
            rw [fitsResult_snoc]
            exact ⟨by omega,hkept,hunicode,by omega⟩
          have htotal' : totalBytes + (byteLength (dumpsUtf8 (serialized item)) + 1) =
              countedBytes (rows ++ [serialized item]) := by
            rw [countedBytes_snoc,htotal]
          have hrest := ih hnext htotal' h (fitsResult_iff.mp hnext).2.1
          rw [List.map_cons]
          rw [List.append_assoc,List.singleton_append] at hrest
          exact hrest

section Unicode

mutual

/-- Every text of a cell, the names of its fields included. -/
def Cell.texts : Cell → List Str
  | .str s | .temporal s | .decimal s | .other s => [s]
  | .struct entries => entryTexts entries
  | .array items => itemTexts items
  | _ => []

def entryTexts : List (Str × Cell) → List Str
  | [] => []
  | (key,value) :: rest => key :: value.texts ++ entryTexts rest

def itemTexts : List Cell → List Str
  | [] => []
  | item :: rest => item.texts ++ itemTexts rest

end

/-- The texts of a row are Unicode, as those of BigQuery are. -/
def IsUnicodeRow (item : Row) : Prop := ∀ s ∈ entryTexts item, IsUnicode s

mutual

theorem jsonValue_texts (cell : Cell) (h : ∀ s ∈ cell.texts, IsUnicode s) :
    ∀ s ∈ texts (jsonValue cell), IsUnicode s := by
  cases cell with
  | struct entries => exact jsonEntries_texts entries [] h (fun s hs => nomatch hs)
  | array items => exact jsonItems_texts items h
  | bytes b =>
    intro s hs
    rw [List.mem_singleton.mp hs]
    exact isUnicode_of_isAscii (isAscii_b64encode b)
  | _ => exact h

theorem jsonEntries_texts (entries : List (Str × Cell)) (d : Dict Json)
    (h : ∀ s ∈ entryTexts entries, IsUnicode s) (hd : ∀ s ∈ Python.entryTexts d, IsUnicode s) :
    ∀ s ∈ Python.entryTexts (jsonEntries entries d), IsUnicode s := by
  cases entries with
  | nil => exact hd
  | cons entry rest =>
    obtain ⟨key,value⟩ := entry
    rw [entryTexts,List.forall_mem_append,List.forall_mem_cons] at h
    obtain ⟨⟨hkey,hvalue⟩,hrest⟩ := h
    apply jsonEntries_texts rest _ hrest
    intro s hs
    rcases texts_set hs with rfl | hs | hs
    · exact hkey
    · exact jsonValue_texts value hvalue s hs
    · exact hd s hs

theorem jsonItems_texts (items : List Cell) (h : ∀ s ∈ itemTexts items, IsUnicode s) :
    ∀ s ∈ Python.itemTexts (jsonItems items), IsUnicode s := by
  cases items with
  | nil => exact fun s hs => nomatch hs
  | cons item rest =>
    rw [itemTexts,List.forall_mem_append] at h
    rw [jsonItems,Python.itemTexts,List.forall_mem_append]
    exact ⟨jsonValue_texts item h.1,jsonItems_texts rest h.2⟩

end

theorem serialized_encodes {item : Row} (h : IsUnicodeRow item) :
    ∃ encoded, encodeUtf8 (dumpsUtf8 (serialized item)) = .ok encoded := by
  refine ⟨_,encodeUtf8_eq_ok.mpr ⟨isUnicode_dumpsUtf8 _ ?_,rfl⟩⟩
  exact jsonEntries_texts item [] h (fun s hs => nomatch hs)

theorem boundedRowsFrom_returns {rows : List Json} {totalBytes : Nat} {iterator : List Row}
    (h : ∀ item ∈ iterator, IsUnicodeRow item) :
    ∃ kept bytes truncated, boundedRowsFrom rows totalBytes iterator = .ok (kept,bytes,truncated) := by
  induction iterator generalizing rows totalBytes with
  | nil => exact ⟨_,_,_,rfl⟩
  | cons item iterator ih =>
    obtain ⟨hitem,hrest⟩ := List.forall_mem_cons.mp h
    obtain ⟨encoded,hencoded⟩ := serialized_encodes hitem
    unfold boundedRowsFrom
    rw [hencoded]
    split
    · exact ⟨_,_,_,rfl⟩
    · dsimp only
      split
      · exact ⟨_,_,_,rfl⟩
      · exact ih hrest

end Unicode

/-- What the loop returns is the longest prefix of the converted rows that fits, and it
reports exactly whether a row was left out. On Unicode rows it always returns. -/
theorem boundedRows_longest (iterator : List Row) :
    ((∀ item ∈ iterator, IsUnicodeRow item) →
      ∃ kept bytes truncated, boundedRows iterator = .ok (kept,bytes,truncated)) ∧
    ∀ kept bytes truncated, boundedRows iterator = .ok (kept,bytes,truncated) →
      LongestPrefix FitsResult (iterator.map serialized) kept ∧
        (truncated = true ↔ kept ≠ iterator.map serialized) := by
  refine ⟨boundedRowsFrom_returns,?_⟩
  intro kept bytes truncated h
  exact boundedRowsFrom_ok fitsResult_nil rfl h

def demoRow : Row := [(str "n",.int 1),(str "b",.bytes (ascii "ok"))]

/-- One row more than a result may have. -/
def demoRows : List Row := List.replicate 1001 demoRow

theorem demoRows_unicode : ∀ item ∈ demoRows, IsUnicodeRow item := by
  have hn : IsUnicode (str "n") := isUnicode_of_isAscii (by decide)
  have hb : IsUnicode (str "b") := isUnicode_of_isAscii (by decide)
  intro item hitem
  rw [List.eq_of_mem_replicate hitem]
  simp [demoRow,IsUnicodeRow,entryTexts,Cell.texts,hn,hb]

theorem demoRow_bytes {n : Nat} (hn : 0 < n) :
    byteLength (dumpsUtf8 (.arr (List.replicate n (serialized demoRow)))) = n * 19 + 1 := by
  have hne : List.replicate n (serialized demoRow) ≠ [] := by
    rw [ne_eq,List.replicate_eq_nil_iff]
    omega
  have hrow : byteLength (dumpsUtf8 (serialized demoRow)) = 18 := by
    decide
  have hbytes := byteLength_rows hne
  unfold countedBytes at hbytes
  rw [List.map_replicate,List.sum_replicate,hrow,nsmul_eq_mul,Nat.cast_id] at hbytes
  omega

theorem demoRow_fits {n : Nat} (hn : 0 < n) (hmost : n ≤ 1000) :
    FitsResult (List.replicate n (serialized demoRow)) := by
  rw [fitsResult_iff,List.length_replicate,demoRow_bytes hn]
  refine ⟨hmost,?_,?_⟩
  · intro row hmem
    rw [List.eq_of_mem_replicate hmem]
    exact isUnicode_of_isAscii (by decide)
  · unfold maxResultBytes
    omega

theorem boundedRows_longest_demo : ∃ kept bytes truncated,
    boundedRows demoRows = .ok (kept,bytes,truncated) ∧
      LongestPrefix FitsResult (demoRows.map serialized) kept ∧
        kept.length = 1000 ∧ truncated = true := by
  obtain ⟨hreturns,hlongest⟩ := boundedRows_longest demoRows
  obtain ⟨kept,bytes,truncated,h⟩ := hreturns demoRows_unicode
  obtain ⟨hlong,htruncated⟩ := hlongest kept bytes truncated h
  have hall : (demoRows.map serialized).length = 1001 := by
    rw [List.length_map]
    exact List.length_replicate
  have hmost : kept.length ≤ 1000 := (fitsResult_iff.mp hlong.fitting).1
  have hfirst : List.replicate 1000 (serialized demoRow) <+: demoRows.map serialized := by
    unfold demoRows
    rw [List.map_replicate,List.prefix_replicate_iff]
    exact ⟨by rw [List.length_replicate]; omega,by rw [List.length_replicate]⟩
  have hleast := hlong.longest _ hfirst (demoRow_fits (by omega) (Nat.le_refl _))
  rw [List.length_replicate] at hleast
  refine ⟨kept,bytes,truncated,h,hlong,by omega,htruncated.mpr ?_⟩
  intro hkept
  rw [hkept,hall] at hmost
  omega

end Woodhouse.Analytics
