import Woodhouse.Paths.Resources

namespace Woodhouse.Transport
open Paths

section Unquote

def isContinuation (b : UInt8) : Bool := 0x80 ≤ b.toNat ∧ b.toNat ≤ 0xBF

/-- The second byte may follow the first in a sequence of three or four. -/
def validSecond (lead second : UInt8) : Bool :=
  let n := lead.toNat
  let m := second.toNat
  if n = 0xE0 then 0xA0 ≤ m ∧ m ≤ 0xBF
  else if n = 0xED then 0x80 ≤ m ∧ m ≤ 0x9F
  else if n = 0xF0 then 0x90 ≤ m ∧ m ≤ 0xBF
  else if n = 0xF4 then 0x80 ≤ m ∧ m ≤ 0x8F
  else (0xE1 ≤ n ∧ n ≤ 0xF3) ∧ isContinuation second

/-- How many bytes of an invalid sequence one replacement character stands for. -/
def invalidLength : List UInt8 → Nat
  | lead :: second :: rest =>
    if validSecond lead second then
      match rest with
      | third :: _ => if 0xF0 ≤ lead.toNat ∧ isContinuation third then 3 else 2
      | [] => 2
    else 1
  | _ => 1

/-- `b.decode("utf-8", "replace")`. -/
def decodeReplace (bytes : List UInt8) : List Char :=
  match bytes with
  | [] => []
  | b :: rest =>
    match (b :: rest).toByteArray.utf8DecodeChar? 0 with
    | some c => c :: decodeReplace (rest.drop (c.utf8Size - 1))
    | none => Char.ofNat 0xFFFD :: decodeReplace (rest.drop (invalidLength (b :: rest) - 1))
termination_by bytes.length
decreasing_by
  all_goals
    simp only [List.length_drop,List.length_cons]
    omega

/-- `urllib.parse.unquote`. -/
def unquote (part : List Char) : String := String.ofList (decodeReplace (percentDecodeBytes part))

theorem decodeReplace_append (c : Char) (rest : List UInt8) :
    decodeReplace (String.utf8EncodeChar c ++ rest) = c :: decodeReplace rest := by
  have hsize := String.length_utf8EncodeChar c
  have hchar : (String.utf8EncodeChar c ++ rest).toByteArray.utf8DecodeChar? 0 = some c := by
    rw [List.toByteArray_append]
    exact ByteArray.utf8DecodeChar?_utf8EncodeChar_append
  cases hbytes : String.utf8EncodeChar c with
  | nil =>
    have hpos := c.utf8Size_pos
    rw [hbytes,List.length_nil] at hsize
    omega
  | cons b tail =>
    rw [hbytes] at hchar hsize
    rw [List.cons_append] at hchar ⊢
    rw [List.length_cons] at hsize
    rw [decodeReplace,hchar]
    dsimp only
    rw [List.drop_append_of_le_length (by omega),List.drop_of_length_le (by omega),List.nil_append]

theorem decodeReplace_encoded (chars : List Char) :
    decodeReplace (chars.flatMap String.utf8EncodeChar) = chars := by
  induction chars with
  | nil => rw [List.flatMap_nil,decodeReplace]
  | cons c chars ih => rw [List.flatMap_cons,decodeReplace_append,ih]

@[simp] theorem unquote_quote (s : String) : unquote (quote s).toList = s := by
  rw [unquote,quote,String.toList_ofList,percentDecodeBytes_quoted,decodeReplace_encoded,
    String.ofList_toList]

theorem percentDecodeBytes_plain {part : List Char} (h : '%' ∉ part) :
    percentDecodeBytes part = part.flatMap String.utf8EncodeChar := by
  induction part with
  | nil => rfl
  | cons c part ih =>
    obtain ⟨hc,hpart⟩ := not_or.mp (fun hm => h (List.mem_cons.mpr hm))
    rw [percentDecodeBytes_of_ne (fun he => hc he.symm),List.flatMap_cons,ih hpart]

/-- What is not percent-encoded is left as it is. -/
theorem unquote_plain {part : List Char} (h : '%' ∉ part) : unquote part = String.ofList part := by
  rw [unquote,percentDecodeBytes_plain h,decodeReplace_encoded]

end Unquote

section Split

/-- The parts of a URL that the transports look at. -/
structure SplitUrl where
  scheme : List Char
  netloc : List Char
  path : List Char
  query : List Char
  fragment : List Char

def isControlOrSpace (c : Char) : Bool := c.toNat ≤ 32

def isSchemeChar (c : Char) : Bool := c.toNat < 128 ∧ (c.isAlphanum ∨ c = '+' ∨ c = '-' ∨ c = '.')

def asciiLower (cs : List Char) : List Char := cs.map Char.toLower

/-- The characters outside ASCII whose compatibility form holds one of `/?#@:`. -/
def netlocDelimiters : List Nat :=
  [0x2047,0x2048,0x2049,0x2100,0x2101,0x2105,0x2106,0x2a74,0xfe13,0xfe16,0xfe55,0xfe56,0xfe5f,
   0xfe6b,0xff03,0xff0f,0xff1a,0xff1f,0xff20]

/-- A scheme in front of the first colon, and what follows it. -/
def splitScheme (url : List Char) : List Char × List Char :=
  let scheme := url.takeWhile (· ≠ ':')
  match scheme with
  | [] => ([],url)
  | first :: _ =>
    if ':' ∈ url ∧ first.isAlpha ∧ scheme.all isSchemeChar then
      (asciiLower scheme,url.drop (scheme.length + 1))
    else ([],url)

def isNetlocEnd (c : Char) : Bool := c = '/' ∨ c = '?' ∨ c = '#'

def splitNetloc (url : List Char) : List Char × List Char :=
  if url.take 2 = ['/','/'] then
    ((url.drop 2).takeWhile (fun c => !isNetlocEnd c),(url.drop 2).dropWhile (fun c => !isNetlocEnd c))
  else ([],url)

/-- `s.split(c, 1)`, where what follows is empty if `c` does not occur. -/
def splitAt (c : Char) (s : List Char) : List Char × List Char :=
  (s.takeWhile (· ≠ c),(s.dropWhile (· ≠ c)).drop 1)

/-- `urlsplit`, `none` where it raises. A host in brackets, which is an IP literal where it
is allowed at all, is not told from an invalid one. -/
def urlsplit (url : List Char) : Option SplitUrl :=
  let url := (url.dropWhile isControlOrSpace).filter (fun c => c ∉ ['\t','\r','\n'])
  let (scheme,url) := splitScheme url
  let (netloc,url) := splitNetloc url
  if '[' ∈ netloc ∨ ']' ∈ netloc then none
  else
    let (url,fragment) := splitAt '#' url
    let (path,query) := splitAt '?' url
    if netloc.any (fun c => decide (c.toNat ∈ netlocDelimiters)) then none
    else some ⟨scheme,netloc,path,query,fragment⟩

/-- `parsed.hostname`, where no part of the network location is in brackets. -/
def SplitUrl.hostname (u : SplitUrl) : Option (List Char) :=
  let hostinfo := (u.netloc.reverse.takeWhile (· ≠ '@')).reverse
  let host := hostinfo.takeWhile (· ≠ ':')
  if host = [] then none
  else some (asciiLower (host.takeWhile (· ≠ '%')) ++ host.dropWhile (· ≠ '%'))

def teslaApiHosts : List String :=
  ["auth.tesla.com","fleet-auth.prd.vn.cloud.tesla.com","fleet-api.prd.na.vn.cloud.tesla.com",
   "fleet-api.prd.eu.vn.cloud.tesla.com","fleet-api.prd.cn.vn.cloud.tesla.cn"]

/-- The URL of a request to an approved Tesla host, in parts. -/
def approvedUrl (url : List Char) : Option SplitUrl :=
  (urlsplit url).filter (fun u => u.scheme = "https".toList ∧
    ∃ host ∈ teslaApiHosts, u.hostname = some host.toList)

end Split

end Woodhouse.Transport
