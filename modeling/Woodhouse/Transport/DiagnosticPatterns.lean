import Woodhouse.Python.Redaction
import Woodhouse.Telemetry.ErrorSummaries

namespace Woodhouse.Transport
open Python Telemetry

section Parts

/-- One after the other. -/
def inOrder (rs : List Regex) : Regex := rs.foldr .seq .empty

def anyOf (r : Regex) : List Regex → Regex
  | [] => r
  | s :: rest => .either r (anyOf s rest)

def theChar (c : Char) : Regex := .char (fun d => d = chr c)

def oneOf (cs : List Char) (c : CodePoint) : Bool := cs.any (fun d => decide (c = chr d))

/-- A small letter without regard to case: so are the dotted and dotless `i`, `ſ` and the Kelvin sign. -/
def isLetter (letter : Char) (c : CodePoint) : Bool :=
  c = chr letter || c = chr letter.toUpper || (letter = 'i' ∧ (c.val = 0x130 ∨ c.val = 0x131)) ||
    (letter = 's' ∧ c.val = 0x17F) || (letter = 'k' ∧ c.val = 0x212A)

/-- A word of small letters without regard to case. -/
def anyCase (word : String) : Regex := inOrder (word.toList.map (fun c => .char (isLetter c)))

/-- `\d`. -/
def isDigit (c : CodePoint) : Bool :=
  isAsciiDigit c || decimalZeros.any (fun z => decide (z ≤ c.val ∧ c.val < z + 10))

/-- `\d{1,3}`. -/
def oneToThreeDigits : Regex :=
  .seq (.char isDigit) (.optional (.seq (.char isDigit) (.optional (.char isDigit))))

/-- `(?:\.\d+)?`. -/
def decimals : Regex := .optional (.seq (theChar '.') (.atLeast 1 isDigit))

def spaces : Regex := .many isSpace

def minus : Regex := .optional (theChar '-')

end Parts

section Patterns
variable (isAlnum : CodePoint → Bool)

/-- `_EMAIL_PATTERN`. -/
def emailPattern : Regex :=
  let part : Regex := .atLeast 1 (fun c => !isSpace c && decide (c ≠ chr '@'))
  inOrder [.boundary,part,theChar '@',part,theChar '.',part,.boundary]

/-- `_JWT_PATTERN`. -/
def jwtPattern : Regex :=
  inOrder [.boundary,.literal (str "eyJ"),.atLeast 1 isTokenChar,tokenPart,tokenPart,.boundary]

/-- `_URL_PATTERN`. -/
def urlPattern : Regex :=
  inOrder [anyCase "http",.optional (anyCase "s"),.literal (str "://"),.atLeast 1 (fun c => !isSpace c)]

/-- `_PRECISE_COORDINATE_PATTERN`. -/
def preciseCoordinatePattern : Regex :=
  inOrder [.notAfter (Telemetry.isWord isAlnum),minus,oneToThreeDigits,theChar '.',.atLeast 4 isDigit,
    .notBefore (Telemetry.isWord isAlnum)]

/-- `_LABELED_COORDINATE_PATTERN`. -/
def labeledCoordinatePattern : Regex :=
  inOrder [.boundary,
    anyOf (inOrder [anyCase "lat",.optional (anyCase "itude")])
      [inOrder [anyCase "lon",.optional (anyCase "gitude")],anyCase "location",
       inOrder [anyCase "coordinate",.optional (anyCase "s")]],
    .boundary,.optional (inOrder [spaces,anyOf (theChar '=') [theChar ':',anyCase "at"]]),
    spaces,minus,oneToThreeDigits,decimals]

/-- `_COORDINATE_PAIR_PATTERN`. -/
def coordinatePairPattern : Regex :=
  let besides : CodePoint → Bool := fun c => Telemetry.isWord isAlnum c || decide (c = chr '.')
  inOrder [.notAfter besides,minus,oneToThreeDigits,decimals,spaces,.char (oneOf [',','/']),spaces,
    minus,oneToThreeDigits,decimals,.notBefore besides]

/-- Two words with `[_ -]?` between them. -/
def compound (first second : String) : Regex :=
  inOrder [anyCase first,.optional (.char (oneOf ['_',' ','-'])),anyCase second]

/-- The names of credentials that also stand alone before a value. -/
def credentialWords : Regex :=
  anyOf (anyCase "token") (["secret","credential","authorization","bearer","password","passcode","pin",
    "code"].map anyCase)

def credentialNames : Regex :=
  anyOf (compound "access" "token")
    [compound "refresh" "token",compound "id" "token",compound "client" "secret",compound "api" "key",
     inOrder [anyCase "session",.optional (.char (oneOf ['_',' ','-'])),
       anyOf (anyCase "id") [anyCase "token"]],
     credentialWords]

def quotationMark : Regex := .optional (.char (oneOf ['"','\x27']))

/-- `_CREDENTIAL_PATTERN`. -/
def credentialPattern : Regex :=
  let closing : CodePoint → Bool := fun c => isSpace c || oneOf [',',';','&','\x7d'] c
  .either
    (inOrder [quotationMark,credentialNames,quotationMark,spaces,.char (oneOf [':','=']),spaces,
      quotationMark,.atLeast 1 (fun c => !closing c && !oneOf ['"','\x27'] c),quotationMark])
    (inOrder [.boundary,credentialWords,.atLeast 1 isSpace,.atLeast 1 (fun c => !closing c)])

/-- The substitutions of `_safe_diagnostic_value`, in their order. -/
def diagnosticPatterns : List (Regex × Str) :=
  [(emailPattern,str "[REDACTED_EMAIL]"),(jwtPattern,str "[REDACTED_TOKEN]"),
   (vinPattern,str "[REDACTED_VIN]"),(urlPattern,str "[REDACTED_URL]"),
   (coordinatePairPattern isAlnum,str "[REDACTED_COORDINATE]"),
   (labeledCoordinatePattern,str "[REDACTED_COORDINATE]"),
   (preciseCoordinatePattern isAlnum,str "[REDACTED_COORDINATE]"),
   (credentialPattern,str "[REDACTED_CREDENTIAL]")]

end Patterns

section Consumption
variable {isAlnum word : CodePoint → Bool} {r : Regex}

theorem inOrder_consumes {rs : List Regex} (hr : r ∈ rs) (h : r.Consumes word) :
    (inOrder rs).Consumes word := by
  induction rs with
  | nil => cases hr
  | cons s rest ih =>
    rcases List.mem_cons.mp hr with rfl | hr
    · exact h.before
    · exact (ih hr).after

theorem atLeast_consumes (word p : CodePoint → Bool) : (Regex.atLeast 1 p).Consumes word :=
  (Regex.consumes_times word p 0).before

theorem either_consumes {s : Regex} (hr : r.Consumes word) (hs : s.Consumes word) :
    (Regex.either r s).Consumes word := by
  intro a b hb
  rcases List.mem_append.mp hb with hb | hb
  · exact hr a b hb
  · exact hs a b hb

theorem credentialPattern_consumes : credentialPattern.Consumes word :=
  either_consumes
    (inOrder_consumes (r := .char (oneOf [':','='])) (by simp) (Regex.consumes_char word _))
    (inOrder_consumes (r := .atLeast 1 isSpace) (by simp) (atLeast_consumes word isSpace))

/-- No pattern matches an empty text. -/
theorem diagnosticPatterns_consume :
    ∀ p ∈ diagnosticPatterns isAlnum, p.1.Consumes (Telemetry.isWord isAlnum) := by
  have hsign : ∀ c, (theChar c).Consumes (Telemetry.isWord isAlnum) := fun c => Regex.consumes_char _ _
  have hdigits : oneToThreeDigits.Consumes (Telemetry.isWord isAlnum) := (Regex.consumes_char _ isDigit).before
  intro p hp
  simp only [diagnosticPatterns,List.mem_cons,List.not_mem_nil,or_false] at hp
  obtain rfl | rfl | rfl | rfl | rfl | rfl | rfl | rfl := hp
  · exact inOrder_consumes (r := theChar '@') (by simp) (hsign '@')
  · exact inOrder_consumes (r := .literal (str "eyJ")) (by simp)
      (Regex.consumes_literal (List.cons_ne_nil _ _))
  · exact vinPattern_consumes
  · exact inOrder_consumes (r := .literal (str "://")) (by simp)
      (Regex.consumes_literal (List.cons_ne_nil _ _))
  · exact inOrder_consumes (r := oneToThreeDigits) (by simp) hdigits
  · exact inOrder_consumes (r := oneToThreeDigits) (by simp) hdigits
  · exact inOrder_consumes (r := oneToThreeDigits) (by simp) hdigits
  · exact credentialPattern_consumes

end Consumption

end Woodhouse.Transport
