import GuloGulo.Js.Uri
import GuloGulo.Js.Value

/-!
# JSON texts

`JSON.stringify` without indentation, one function for each kind of value. A
surrogate without its other half is escaped.
-/

namespace GuloGulo.Js

/-- `\u` and four digits. -/
def jsonEscape (u : UInt16) : JsString :=
  let n := u.toNat
  js "\\u" ++ [hexUnit (n / 4096), hexUnit (n / 256 % 16), hexUnit (n / 16 % 16), hexUnit (n % 16)]

def jsonUnit (u : UInt16) : JsString :=
  match u with
  | 8 => js "\\b"
  | 9 => js "\\t"
  | 10 => js "\\n"
  | 12 => js "\\f"
  | 13 => js "\\r"
  | 34 => js "\\\""
  | 92 => js "\\\\"
  | u => if u < 0x20 || isHighSurrogate u || isLowSurrogate u then jsonEscape u else [u]

def jsonUnits : JsString → JsString
  | [] => []
  | [u] => jsonUnit u
  | u :: v :: rest =>
    if isHighSurrogate u && isLowSurrogate v then u :: v :: jsonUnits rest else jsonUnit u ++ jsonUnits (v :: rest)

def jsonString (s : JsString) : JsString := js "\"" ++ jsonUnits s ++ js "\""

def jsonInteger (n : Int) : JsString := if n < 0 then js "-" ++ decimal n.natAbs else decimal n.natAbs

def jsonBool (b : Bool) : JsString := if b then js "true" else js "false"

/-- `null` for nothing. -/
def jsonOption (s : Option JsString) : JsString := s.elim (js "null") jsonString

def jsonArray (items : List JsString) : JsString := js "[" ++ join items (js ",") ++ js "]"

def jsonObject (fields : List (String × JsString)) : JsString :=
  js "\x7b" ++ join (fields.map fun f => jsonString (js f.1) ++ js ":" ++ f.2) (js ",") ++ js "\x7d"

example : jsonObject [("a", jsonString (js "x\ny")), ("b", jsonArray [jsonInteger (-3)])] =
    js "\x7b\"a\":\"x\\ny\",\"b\":[-3]\x7d" := by decide

end GuloGulo.Js
