import Cpm.Lib.CString

/-! JSON values as jansson hands them out. A lookup in anything but an object, and in NULL,
gives NULL; so does the text of anything but a string. -/
namespace Cpm

open Lib

inductive Json where
  | object (members : List (String × Json))
  | array (items : List Json)
  | string (text : CStr)
  | integer (value : Int)
  | real (bits : UInt64)
  | true
  | false
  | null

def jsonObjectGet : Option Json → String → Option Json
  | some (.object members), key => members.lookup key
  | _, _ => none

def jsonStringValue : Option Json → Option CStr
  | some (.string text) => some text
  | _ => none

def jsonIntegerValue : Option Json → Int
  | some (.integer value) => value
  | _ => 0

theorem jsonIntegerValue_of_string {value : Option Json} {text : CStr}
    (string : jsonStringValue value = some text) : jsonIntegerValue value = 0 := by
  unfold jsonStringValue at string
  split at string
  · rfl
  · contradiction

end Cpm
