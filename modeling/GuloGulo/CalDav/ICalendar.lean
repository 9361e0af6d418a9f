import GuloGulo.CalDav.Contract
import GuloGulo.Data.Table
import GuloGulo.Js.Lines
import GuloGulo.Js.Sha256

/-!
# The iCalendar validator

`validateICalendar` of `caldav-contract.ts`: line endings and folding, then
the component parser, then the checks on the one event.
-/

namespace GuloGulo.CalDav
open Js Data

def maxICalendarBytes : Nat := 1048576
def maxICalendarLines : Nat := 10000
def maxICalendarLineLength : Nat := 8192
def maxComponentCount : Nat := 256
def maxComponentDepth : Nat := 4

/-- A control character the validator refuses; TAB, LF and CR pass. -/
def isRefusedControl (u : UInt16) : Bool :=
  u ≤ 8 || u == 11 || u == 12 || (14 ≤ u && u ≤ 31) || u == 127

def invalidICalendar (message : String) : CalDavError :=
  calDavError (js message) .invalidICalendar 422

def canonicalLineEndings (icalText : JsValue) : Except CalDavError (List JsString × JsString) :=
  match icalText with
  | .string text => do
    throwIf text.isEmpty (invalidICalendar "iCalendar data is required")
    failIf (decide (maxICalendarBytes < byteLength text)) "iCalendar exceeds the maximum object size"
      .icalendarTooLarge 413
    throwIf (includes text cr && !includes text crlf)
      (invalidICalendar "bare CR is not valid iCalendar input")
    let lines := splitLines (replaceAll text crlf lf)
    failIf (decide (maxICalendarLines < lines.length)) "iCalendar contains too many lines"
      .icalendarTooLarge 413
    failIf (lines.any fun line => maxICalendarLineLength < line.length)
      "iCalendar line exceeds the maximum length" .icalendarTooLarge 413
    throwIf (lines.any fun line => line.any isRefusedControl)
      (invalidICalendar "iCalendar contains a control character")
    throwIf lines.isEmpty (invalidICalendar "iCalendar has no content")
    let unfolded ←
      unfoldLines (invalidICalendar "iCalendar continuation appears before a property") lines
    return (unfolded, join unfolded crlf ++ crlf)
  | _ => .error (invalidICalendar "iCalendar data is required")

/-! ## Properties -/

structure ICalendarProperty where
  name : JsString
  value : JsString
  parameters : OrderedMap JsString JsString

/-- `property.parameters.NAME`. -/
def ICalendarProperty.parameter (p : ICalendarProperty) (name : String) : Option JsString :=
  p.parameters.get (js name)

/-- `/^[A-Z][A-Z0-9-]*$/u`. -/
def propertyNamePattern : JsString → Bool
  | u :: us => isUpper u && us.all fun u => isUpper u || isDigit u || u == 45
  | [] => false

def parseParameter (host : Host) (parameters : OrderedMap JsString JsString) (part : JsString) :
    Except CalDavError (OrderedMap JsString JsString) :=
  match cut part 61 with
  | some (before, parameterValue) => do
    throwIf before.isEmpty (invalidICalendar "iCalendar parameter is invalid")
    let key := host.toUpperCase before
    throwIf (!propertyNamePattern key || parameterValue.isEmpty)
      (invalidICalendar "iCalendar parameter is invalid")
    let opened := startsWith parameterValue (js "\"")
    let closed := endsWith parameterValue (js "\"")
    throwIf ((opened || closed) && !(opened && closed))
      (invalidICalendar "iCalendar parameter quotes are unbalanced")
    return parameters.set key
      (if opened || closed then (parameterValue.drop 1).dropLast else parameterValue)
  | none => .error (invalidICalendar "iCalendar parameter is invalid")

def parseProperty (host : Host) (line : JsString) : Except CalDavError ICalendarProperty :=
  match cut line 58 with
  | some (head, value) => do
    throwIf head.isEmpty (invalidICalendar "iCalendar property has no name or value separator")
    let parts := split head 59
    let name := host.toUpperCase (parts.headD [])
    throwIf (!propertyNamePattern name) (invalidICalendar "iCalendar property name is invalid")
    let parameters ← parts.tail.foldlM (parseParameter host) Table.empty
    return ⟨name, value, parameters⟩
  | none => .error (invalidICalendar "iCalendar property has no name or value separator")

/-! ## Components -/

inductive ComponentName where
  | vcalendar | vevent | vtimezone | standard | daylight | valarm
  deriving DecidableEq, Repr

namespace ComponentName

def text : ComponentName → JsString
  | vcalendar => js "VCALENDAR"
  | vevent => js "VEVENT"
  | vtimezone => js "VTIMEZONE"
  | standard => js "STANDARD"
  | daylight => js "DAYLIGHT"
  | valarm => js "VALARM"

/-- `SUPPORTED_COMPONENTS`. -/
def ofText? (s : JsString) : Option ComponentName :=
  [vcalendar, vevent, vtimezone, standard, daylight, valarm].find? fun name => name.text == s

end ComponentName

inductive ICalendarComponent where
  | mk (name : ComponentName) (properties : List ICalendarProperty)
      (children : List ICalendarComponent)

namespace ICalendarComponent

def name : ICalendarComponent → ComponentName
  | mk name _ _ => name

def properties : ICalendarComponent → List ICalendarProperty
  | mk _ properties _ => properties

def children : ICalendarComponent → List ICalendarComponent
  | mk _ _ children => children

def addProperty (c : ICalendarComponent) (p : ICalendarProperty) : ICalendarComponent :=
  mk c.name (c.properties ++ [p]) c.children

def addChild (c child : ICalendarComponent) : ICalendarComponent :=
  mk c.name c.properties (c.children ++ [child])

end ICalendarComponent

/-- `/^KEYWORD:([A-Za-z0-9-]+)$/u`, with the group. -/
def matchBoundary (keyword line : JsString) : Option JsString :=
  if startsWith line keyword then
    let name := line.drop keyword.length
    if !name.isEmpty && name.all (fun u => isAlnum u || u == 45) then some name else none
  else none

/-- The open components, the innermost first, and the root once it is closed. -/
structure ComponentParser where
  stack : List ICalendarComponent
  componentCount : Nat
  root : Option ICalendarComponent

def assertChild (parent name : ComponentName) : Except CalDavError Unit := do
  let misplaced (place : String) : CalDavError :=
    calDavError (js "component " ++ name.text ++ js " is not valid in " ++ js place)
      .invalidICalendar 422
  throwIf (parent == .vcalendar && !(name == .vevent || name == .vtimezone)) (misplaced "VCALENDAR")
  throwIf (parent == .vtimezone && !(name == .standard || name == .daylight)) (misplaced "VTIMEZONE")
  throwIf (parent == .vevent && name != .valarm) (misplaced "VEVENT")
  throwIf (parent == .valarm) (invalidICalendar "nested VALARM components are not supported")

def beginComponent (p : ComponentParser) (text : JsString) : Except CalDavError ComponentParser :=
  match ComponentName.ofText? text with
  | none => fail (js "component " ++ text ++ js " is not supported") .unsupportedComponent 422
  | some name => do
    failIf (decide (maxComponentCount < p.componentCount + 1)) "iCalendar contains too many components"
      .icalendarTooLarge 413
    failIf (decide (maxComponentDepth ≤ p.stack.length)) "iCalendar component nesting is too deep"
      .icalendarTooLarge 413
    match p.stack with
    | [] =>
      throwIf (p.root.isSome || name != .vcalendar)
        (invalidICalendar "VCALENDAR must be the sole root component")
    | parent :: _ => assertChild parent.name name
    return { p with
      stack := .mk name [] [] :: p.stack
      componentCount := p.componentCount + 1 }

/-- A component joins its parent when it ends: nothing reads it before. -/
def endComponent (p : ComponentParser) (text : JsString) : Except CalDavError ComponentParser :=
  let mismatch := invalidICalendar "iCalendar component boundaries do not match"
  match p.stack with
  | [] => .error mismatch
  | current :: enclosing => do
    throwIf (current.name.text != text) mismatch
    match enclosing with
    | [] => return { p with stack := [], root := some current }
    | parent :: rest => return { p with stack := parent.addChild current :: rest }

def propertyLine (host : Host) (p : ComponentParser) (line : JsString) :
    Except CalDavError ComponentParser :=
  match p.stack with
  | [] => .error (invalidICalendar "iCalendar property appears outside a component")
  | current :: enclosing => do
    let property ← parseProperty host line
    return { p with stack := current.addProperty property :: enclosing }

def parseLine (host : Host) (p : ComponentParser) (line : JsString) :
    Except CalDavError ComponentParser :=
  match matchBoundary (js "BEGIN:") line, matchBoundary (js "END:") line with
  | some text, _ => beginComponent p (host.toUpperCase text)
  | none, some text => endComponent p (host.toUpperCase text)
  | none, none => propertyLine host p line

/-- The loop of `parseCalendarComponents` over the unfolded lines. -/
def parseLines (host : Host) (lines : List JsString) : Except CalDavError ICalendarComponent := do
  let p ← lines.foldlM (parseLine host) ⟨[], 0, none⟩
  match p.root, p.stack with
  | some root, [] => do
    throwIf (root.name != .vcalendar) (invalidICalendar "iCalendar must contain a closed VCALENDAR")
    return root
  | _, _ => .error (invalidICalendar "iCalendar must contain a closed VCALENDAR")

/-! ## Metadata -/

inductive DateKind where
  | date | dateTime
  deriving DecidableEq, Repr

structure CalendarDate where
  value : JsString
  kind : DateKind
  timeZone : Option JsString
  deriving DecidableEq

structure CalendarAddress where
  address : JsString
  commonName : Option JsString
  role : JsString
  partStat : JsString
  deriving DecidableEq

structure ICalendarMetadata where
  uid : JsString
  summary : JsString
  description : JsString
  dtStart : Option CalendarDate
  dtEnd : Option CalendarDate
  duration : Option JsString
  timeZoneIds : List JsString
  organizer : Option CalendarAddress
  attendees : List (Option CalendarAddress)
  method : Option JsString
  /-- `none` is `Infinity`. -/
  sequence : Option Nat
  component : ComponentName
  deriving DecidableEq

structure ValidatedICalendar extends ICalendarMetadata where
  canonicalText : JsString
  deriving DecidableEq

def properties (component : ICalendarComponent) (name : String) : List ICalendarProperty :=
  component.properties.filter fun p => p.name == js name

def oneProperty (component : ICalendarComponent) (name : String) (required : Bool) :
    Except CalDavError (Option ICalendarProperty) := do
  let found := properties component name
  throwIf (decide (1 < found.length))
    (calDavError (js name ++ js " must occur at most once") .invalidICalendar 422)
  throwIf (required && found.isEmpty) (calDavError (js name ++ js " is required") .invalidICalendar 422)
  return found.head?

/-- A property that must be there. -/
def requiredProperty (component : ICalendarComponent) (name : String) :
    Except CalDavError ICalendarProperty := do
  match ← oneProperty component name true with
  | some property => return property
  | none => .error (calDavError (js name ++ js " is required") .invalidICalendar 422)

def unescapeText (value : JsString) : JsString :=
  let value := replaceAll value (js "\\N") lf
  let value := replaceAll value (js "\\n") lf
  let value := replaceAll value (js "\\,") (js ",")
  let value := replaceAll value (js "\\;") (js ";")
  replaceAll value (js "\\\\") (js "\\")

def digits (n : Nat) (s : JsString) : Bool := s.length == n && s.all isDigit

/-- `/^\d{8}T\d{6}(Z)?$/u`. -/
def dateTimePattern (s : JsString) : Bool :=
  digits 8 (s.take 8) && (s.drop 8).take 1 == js "T" && digits 6 ((s.drop 9).take 6) &&
    (s.drop 15 == [] || s.drop 15 == js "Z")

/-- A string is true when it is not empty. -/
def isTruthy (s : Option JsString) : Bool := s.any fun s => !s.isEmpty

def assertTzid (value : JsString) (field : String) : Except CalDavError JsString :=
  requiredPattern (.string value) tzidPattern field .invalidTimezone

def assertDateValue (host : Host) (property : Option ICalendarProperty) (field : String) :
    Except CalDavError (Option CalendarDate) :=
  match property with
  | none => return none
  | some property => do
    let error (message : String) (code : CalDavCode) : CalDavError :=
      calDavError (js field ++ js message) code 422
    let value := property.value
    let tzid := property.parameter "TZID"
    if (property.parameter "VALUE").map host.toUpperCase = some (js "DATE") then do
      throwIf (isTruthy tzid) (error " DATE value cannot use TZID" .invalidTimezone)
      throwIf (!digits 8 value) (error " DATE value is invalid" .invalidICalendar)
      return some ⟨value, .date, none⟩
    else do
      throwIf (!dateTimePattern value) (error " DATE-TIME value is invalid" .invalidICalendar)
      let utc := endsWith value (js "Z")
      throwIf (utc && isTruthy tzid) (error " cannot use TZID with UTC notation" .invalidICalendar)
      match tzid.or (if utc then some (js "UTC") else none) with
      | some timeZone => do
        let timeZone ← assertTzid timeZone (field ++ " TZID")
        return some ⟨value, .dateTime, some timeZone⟩
      | none => return some ⟨value, .dateTime, none⟩

/-- `/^mailto:[^\s<>@]+@[^\s<>@]+$/iu`. -/
def mailtoPattern (s : JsString) : Bool :=
  let part (t : JsString) : Bool :=
    !t.isEmpty && t.all fun u => !(isWhiteSpace u || u == 60 || u == 62 || u == 64)
  (s.take 7).map asciiLower == js "mailto:" &&
    match cut (s.drop 7) 64 with
    | some (name, domain) => part name && part domain
    | none => false

def attendeeRoles : List JsString :=
  [js "CHAIR", js "REQ-PARTICIPANT", js "OPT-PARTICIPANT", js "NON-PARTICIPANT"]

def attendeePartstat : List JsString :=
  [js "NEEDS-ACTION", js "ACCEPTED", js "DECLINED", js "TENTATIVE", js "DELEGATED", js "COMPLETED",
    js "IN-PROCESS"]

def parseAddress (host : Host) (property : Option ICalendarProperty) (field : String) :
    Except CalDavError (Option CalendarAddress) :=
  match property with
  | none => return none
  | some property => do
    let error (message : String) : CalDavError :=
      calDavError (js field ++ js message) .invalidAttendee 422
    throwIf (!mailtoPattern property.value) (error " must be a mailto address")
    let role := (property.parameter "ROLE").map host.toUpperCase
    let partStat := (property.parameter "PARTSTAT").map host.toUpperCase
    throwIf (role.any fun role => !attendeeRoles.contains role) (error " ROLE is invalid")
    throwIf (partStat.any fun partStat => !attendeePartstat.contains partStat)
      (error " PARTSTAT is invalid")
    let commonName := property.parameter "CN"
    return some {
      address := host.toLowerCase property.value
      commonName := if isTruthy commonName then commonName.map unescapeText else none
      role := role.getD (js "REQ-PARTICIPANT")
      partStat := partStat.getD (js "NEEDS-ACTION") }

/-- `\d+U`, as what follows it. -/
def digitsThen (u : UInt16) (s : JsString) : Option JsString :=
  match s.dropWhile isDigit with
  | v :: rest => if v == u && (s.head?.any isDigit) then some rest else none
  | [] => none

/-- `(?:\d+U)?`. A part that is there cannot be left out: what follows it in
the pattern does not start with a digit before another unit. -/
def optionalDigits (u : UInt16) (s : JsString) : JsString := (digitsThen u s).getD s

/-- `(?:\d+(?:\.\d+)?S)?$`. -/
def secondsPattern (s : JsString) : Bool :=
  s.isEmpty || digitsThen 83 s == some [] || (digitsThen 46 s).any fun rest => digitsThen 83 rest == some []

/-- `/^[-+]?P(?:\d+W|(?:\d+D)?(?:T(?:\d+H)?(?:\d+M)?(?:\d+(?:\.\d+)?S)?)?)$/u`. -/
def durationPattern (s : JsString) : Bool :=
  let unsigned := match s with
    | 43 :: rest | 45 :: rest => rest
    | _ => s
  match unsigned with
  | 80 :: period =>
    digitsThen 87 period == some [] ||
      match optionalDigits 68 period with
      | [] => true
      | 84 :: time => secondsPattern (optionalDigits 77 (optionalDigits 72 time))
      | _ => false
  | _ => false

/-- `/^[+-]\d{4}$/u`. -/
def offsetPattern : JsString → Bool
  | u :: us => (u == 43 || u == 45) && digits 4 us
  | [] => false

/-- `Set.add`. -/
def addUnique (set : List JsString) (s : JsString) : List JsString :=
  if set.contains s then set else set ++ [s]

/-- `Number` of a string of digits: the nearest double, ties to even; `none`
is `Infinity`. -/
def numberOfDigits (s : JsString) : Option Nat :=
  let n := parseDecimal s
  let e := n.log2 - 52
  let q := n / 2 ^ e
  let r := n % 2 ^ e
  let up := decide (2 ^ e < 2 * r) || (decide (2 * r = 2 ^ e) && q % 2 == 1)
  let rounded := (if e > 0 && up then q + 1 else q) * 2 ^ e
  if 2 ^ 1024 ≤ rounded then none else some rounded

/-- `timeZoneIds` and `timeZoneDefinitions`. -/
structure TimeZones where
  ids : List JsString
  definitions : List JsString

def collectTzid (zones : TimeZones) (property : ICalendarProperty) : Except CalDavError TimeZones :=
  match property.parameter "TZID" with
  | some tzid =>
    if tzid.isEmpty then return zones
    else do
      let tzid ← assertTzid tzid "TZID"
      return { zones with ids := addUnique zones.ids tzid }
  | none => return zones

def collectZones (zones : TimeZones) (component : ICalendarComponent) :
    Except CalDavError TimeZones := do
  let zones ← component.properties.foldlM collectTzid zones
  if component.name = .vtimezone then do
    let zone ← requiredProperty component "TZID"
    let _ ← assertTzid zone.value "VTIMEZONE TZID"
    throwIf (zones.definitions.contains zone.value)
      (calDavError (js "VTIMEZONE " ++ zone.value ++ js " is duplicated") .invalidTimezone 422)
    failIf ((properties component "TZOFFSETFROM" ++ properties component "TZOFFSETTO").any fun p =>
        !offsetPattern p.value)
      "VTIMEZONE offset is invalid" .invalidTimezone 422
    return { zones with definitions := zones.definitions ++ [zone.value] }
  else return zones

def supportedMethods : List JsString :=
  [js "PUBLISH", js "REQUEST", js "REPLY", js "CANCEL", js "ADD", js "REFRESH"]

def calendarMetadata (host : Host) (root : ICalendarComponent) :
    Except CalDavError ICalendarMetadata := do
  let version ← requiredProperty root "VERSION"
  throwIf (version.value != js "2.0") (invalidICalendar "iCalendar VERSION must be 2.0")
  let _ ← oneProperty root "PRODID" true
  match root.children.filter fun component => component.name == .vevent with
  | [event] => do
    let uid ← requiredProperty event "UID"
    throwIf (uid.value.isEmpty || decide (512 < uid.value.length)) (invalidICalendar "UID is invalid")
    let dtStart ← assertDateValue host (← oneProperty event "DTSTART" true) "DTSTART"
    let dtEnd ← assertDateValue host (← oneProperty event "DTEND" false) "DTEND"
    let duration ← oneProperty event "DURATION" false
    throwIf (dtEnd.isSome && duration.isSome)
      (invalidICalendar "DTEND and DURATION cannot both be present")
    throwIf (duration.any fun d => !durationPattern d.value) (invalidICalendar "DURATION is invalid")
    let zones ← (root :: (root.children ++ root.children.flatMap (·.children))).foldlM collectZones
      ⟨[], []⟩
    match zones.ids.find? fun id => id != js "UTC" && !zones.definitions.contains id with
    | some id =>
      fail (js "TZID " ++ id ++ js " has no VTIMEZONE definition") .timezoneUndefined 422
    | none => pure ()
    let organizerProperty ← oneProperty event "ORGANIZER" false
    let attendees ← (properties event "ATTENDEE").mapM fun p => parseAddress host (some p) "ATTENDEE"
    let organizer ← parseAddress host organizerProperty "ORGANIZER"
    let sequence ← oneProperty event "SEQUENCE" false
    throwIf (sequence.any fun s => !isDigits s.value) (invalidICalendar "SEQUENCE is invalid")
    let method ← oneProperty root "METHOD" false
    failIf (method.any fun m => !supportedMethods.contains (host.toUpperCase m.value))
      "METHOD is not supported" .unsupportedMethod 422
    let summary ← oneProperty event "SUMMARY" false
    let description ← oneProperty event "DESCRIPTION" false
    return {
      uid := uid.value
      summary := unescapeText (summary.elim [] (·.value))
      description := unescapeText (description.elim [] (·.value))
      dtStart, dtEnd
      duration := duration.map (·.value)
      timeZoneIds := zones.ids
      organizer, attendees
      method := method.map fun m => host.toUpperCase m.value
      sequence := sequence.elim (some 0) fun s => numberOfDigits s.value
      component := .vevent }
  | _ => .error (invalidICalendar "exactly one VEVENT is required per calendar object")

def validateICalendar (host : Host) (icalText : JsValue) : Except CalDavError ValidatedICalendar := do
  let (lines, canonical) ← canonicalLineEndings icalText
  let root ← parseLines host lines
  let metadata ← calendarMetadata host root
  return { metadata with canonicalText := canonical }

/-- A calendar object with one more property line in its event. -/
def sampleEvent (property : JsString) : JsString :=
  js "BEGIN:VCALENDAR\r\nVERSION:2.0\r\nPRODID:-//acme//EN\r\nBEGIN:VEVENT\r\nUID:1\r\nDTSTART:20260709T120000Z\r\n" ++
    property ++ js "\r\nEND:VEVENT\r\nEND:VCALENDAR\r\n"

example : ((validateICalendar asciiHost (.string (sampleEvent (js "SUMMARY:a\r\n b")))).map (·.canonicalText)) =
    .ok (sampleEvent (js "SUMMARY:ab")) := by decide +kernel

end GuloGulo.CalDav
