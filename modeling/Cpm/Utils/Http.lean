import Cpm.Lib.Numerals
import Cpm.Lib.Search

/-! The query parameters of a URL, as `http.c` reads them, and the status it answers an error with. A
place in the URL is its offset; the counters are naturals, as no URL has 2^31 bytes. -/
namespace Cpm

open Lib

structure ParamValue where
  start : Nat
  len : Nat
  deriving DecidableEq, Repr

/-- The test behind `strstr`: a separator is in front of the name and it ends here. -/
def delimited (query name : List Char) (p : Nat) : Bool :=
  (query[p - 1]? = some '?' || query[p - 1]? = some '&') &&
    (query[p + name.length]? = none || query[p + name.length]? = some '&' ||
      query[p + name.length]? = some '=' || query[p + name.length]? = some '#')

def findName (query name : List Char) : Nat → Option Nat → Option Nat
  | fuel + 1, some p =>
    if delimited query name p then some p
    else findName query name fuel (strstr query name (p + name.length))
  | _, _ => none

/-- What stands behind a name: with an '=' the value runs to the next '&' or to the end. -/
def valueBehind (url : List Char) (p : Nat) : ParamValue :=
  if url[p]? = some '=' then ⟨p + 1, ((url.drop (p + 1)).takeWhile (· != '&')).length⟩ else ⟨p, 0⟩

def paramReserved : List Char := ['?', '&', '=', '#']

/-- Every step of the loop is behind the last one, so the length of the query is enough fuel. -/
def getParam (url name : CStr) : Option ParamValue :=
  match url.chars.idxOf? '?' with
  | none => none
  | some start =>
    let query := url.chars.drop start
    if name.strlen = 0 || name.chars.any (· ∈ paramReserved) then none
    else
      match findName query name.chars (query.length + 1) (strstr query name.chars 0) with
      | none => none
      | some hit =>
        let p := start + hit
        if (url.chars.idxOf? '#').any (· < p) then none
        else some (valueBehind url.chars (p + name.strlen))

example : getParam (.lit "/?key=val") (.lit "key") = some ⟨6, 3⟩ := by decide

example : getParam (.lit "/?key&foo") (.lit "key") = some ⟨5, 0⟩ := by decide

/-- The text of a value in the URL, and what stands behind it. -/
def valueText (url : CStr) (value : ParamValue) : List Char × List Char :=
  ((url.drop value.start).chars.take value.len, (url.drop value.start).chars.drop value.len)

def hexDigit (c : Char) : Option Nat :=
  if c.isDigit then some (c.toNat - '0'.toNat)
  else if 'a' ≤ c && c ≤ 'f' then some (c.toNat - 'a'.toNat + 10)
  else if 'A' ≤ c && c ≤ 'F' then some (c.toNat - 'A'.toNat + 10)
  else none

/-- The conversion `%2x` behind the blanks: the number and how many characters it takes. The
prefix "0x" alone is no number for the C standard; glibc reads a zero there. -/
def hexField (lonePrefix : Bool) : List Char → Option (Int × Nat)
  | c :: d :: _ =>
    if c = '+' then (hexDigit d).map fun (low : Nat) => ((low : Int), 2)
    else if c = '-' then (hexDigit d).map fun (low : Nat) => (-(low : Int), 2)
    else if c = '0' && (d = 'x' || d = 'X') then if lonePrefix then some (0, 2) else none
    else match hexDigit c, hexDigit d with
      | some high, some low => some (16 * high + low, 2)
      | some low, none => some (low, 1)
      | none, _ => none
  | [c] => (hexDigit c).map fun (low : Nat) => ((low : Int), 1)
  | [] => none

/-- `sscanf(text, "%2x%n", &c, &n)`; a text that ends too early leaves `n` at zero and is
refused like one that does not match. -/
def scanHex (lonePrefix : Bool) (text : List Char) : Option (Int × Nat) :=
  (hexField lonePrefix (text.dropWhile CStr.isspace)).map fun field =>
    (field.1, (text.takeWhile CStr.isspace).length + field.2)

def toByte (value : Int) : Char := .ofNat (value % 256).toNat

/-- The loop of `neu_url_decode`: the characters it writes for the input that is left, with what
stands behind the input and the room in the buffer. -/
def decodeLoop (lonePrefix : Bool) (behind : List Char) : List Char → Nat → Option (List Char)
  | _, 0 => some []
  | [], _ => some []
  | '%' :: x :: y :: rest, room + 1 =>
    match scanHex lonePrefix (x :: y :: (rest ++ behind)) with
    | some (value, 2) => (decodeLoop lonePrefix behind rest room).map (toByte value :: ·)
    | _ => none
  | c :: rest, room + 1 =>
    if c = '%' then none
    else (decodeLoop lonePrefix behind rest room).map ((if c = '+' then ' ' else c) :: ·)

/-- The count that is returned, and the part of the buffer that is written. -/
structure UrlDecoded where
  count : Nat
  buffer : List Char
  deriving DecidableEq, Repr

/-- The first `len` characters of the text are the input; `none` is the result -1. A full buffer
loses its last character to the terminator. -/
def neuUrlDecode (lonePrefix : Bool) (text : List Char) (len size : Nat) : Option UrlDecoded :=
  (decodeLoop lonePrefix (text.drop len) (text.take len) size).map fun written =>
    ⟨written.length, (if written.length < size then written else written.dropLast) ++ ['\x00']⟩

inductive ParamError where
  | missing
  | malformed
  deriving DecidableEq, Repr

def neuHttpGetParamStr (lonePrefix : Bool) (url name : CStr) (size : Nat) :
    Except ParamError UrlDecoded :=
  match getParam url name with
  | none => .error .missing
  | some value =>
    match neuUrlDecode lonePrefix (url.drop value.start).chars value.len size with
    | none => .error .malformed
    | some decoded => .ok decoded

def erange : Int := 34

/-- The result -1 is `none`; `errno` is what earlier calls left. -/
def neuHttpGetParamUintmax (errno : Int) (url name : CStr) : Option Nat :=
  match getParam url name with
  | none => none
  | some value =>
    if value.len = 0 then none
    else
      let result := CStr.strtoumax (url.drop value.start).chars
      let errno' := if result.outOfRange then erange else errno
      if (result.value = CStr.uintmaxMax && errno' = erange) || CStr.uintmaxMax < result.value ||
          value.len ≠ result.stop then none
      else some result.value

def uint64Max : Nat := 2 ^ 64 - 1

def uint32Max : Nat := 2 ^ 32 - 1

def neuHttpGetParamUint64 (errno : Int) (url name : CStr) : Option Nat :=
  match neuHttpGetParamUintmax errno url name with
  | none => none
  | some val => if uint64Max < val then none else some val

def neuHttpGetParamUint32 (errno : Int) (url name : CStr) : Option Nat :=
  match neuHttpGetParamUintmax errno url name with
  | none => none
  | some val => if uint32Max < val then none else some val

inductive NngHttpStatus where
  | ok
  | partialContent
  | badRequest
  | unauthorized
  | forbidden
  | notFound
  | conflict
  | internalServerError
  deriving DecidableEq, Repr

def NEU_ERR_PLUGIN_ERROR_START : Int := 10000
def NEU_ERR_PLUGIN_ERROR_END : Int := 20000

/-- The cases of the switch in `neu_http_response`, in its order. -/
def handledCodes : List (NngHttpStatus × List Int) :=
  [(.ok, [0, 2005, 3000, 3001, 3002, 3003, 3004, 2402, 2403, 2404, 2405, 2406, 2101, 3007, 3009,
      3010, 3011, 3012, 4000, 4005, 4006, 4007, 4010, 4014, 4100, 4103]),
    (.internalServerError, [1001, 1010]),
    (.forbidden, [1006, 1007, 1008]),
    (.unauthorized, [1004, 1005, 1009, 1017, 1018]),
    (.badRequest, [1002, 1003, 1015, 1016, 2004, 2013, 2012, 2014, 2302, 2401, 2105, 2306, 2304,
      2305, 2010, 2015, 2107, 1012, 1013, 2502, 3013, 3016]),
    (.notFound, [1011, 4101, 4102, 2301, 2003, 2201, 2400, 2106, 2102, 1014, 2501, 3014, 3017]),
    (.conflict, [2002, 2006, 2007, 2008, 2009, 2202, 2303, 2104, 2103, 2307, 2011, 2500]),
    (.partialContent, [2203, 2204, 2205, 2208, 2209, 2206, 2207])]

def neuHttpResponse (code : Int) : Option NngHttpStatus :=
  match handledCodes.find? fun row => row.2.contains code with
  | some row => some row.1
  | none =>
    if NEU_ERR_PLUGIN_ERROR_START ≤ code ∧ code ≤ NEU_ERR_PLUGIN_ERROR_END then some .ok else none

end Cpm
