import GuloGulo.Js.Uri
import GuloGulo.Js.Effect

/-!
# The CalDAV contract: identifiers, actors, tokens

The exported checks of `caldav-contract.ts` that both CalDAV stores share.
-/

namespace GuloGulo.CalDav
open Js

inductive CalDavCode where
  | invalidRequest | invalidTenant | invalidUser | invalidCalendarId | invalidTimestamp
  | authenticationRequired | crossTenantDenied | invalidActorRole | contentScopeRequired
  | invalidSyncToken | syncScopeDenied
  | invalidICalendar | icalendarTooLarge | unsupportedComponent | invalidTimezone
  | invalidAttendee | timezoneUndefined | unsupportedMethod
  | ambiguousCalendarId | calendarNotFound | aclDenied | calendarExists | invalidCollection
  | aclOwnerRequired | invalidAcl | preconditionFailed | objectExists | invalidPrecondition
  | objectNotFound | preconditionRequired | uidImmutable | calendarNotEmpty
  | invalidDomain | databaseRowMissing
  deriving DecidableEq, Repr

structure CalDavError where
  message : JsString
  code : CalDavCode
  status : Nat
  deriving DecidableEq

def calDavError (message : JsString) (code : CalDavCode) (status : Nat) : CalDavError :=
  ⟨js "CalDAV contract error: " ++ message, code, status⟩

def fail {α : Type} (message : JsString) (code : CalDavCode) (status : Nat) :
    Except CalDavError α :=
  .error (calDavError message code status)

def failIf (c : Bool) (message : String) (code : CalDavCode) (status : Nat) :
    Except CalDavError Unit :=
  throwIf c (calDavError (js message) code status)

theorem failIf_eq_ok {c : Bool} {message : String} {code : CalDavCode} {status : Nat} {u : Unit} :
    failIf c message code status = .ok u ↔ c = false :=
  throwIf_eq_ok

def isCalendarIdUnit (u : UInt16) : Bool := isAlnum u || u == 46 || u == 95 || u == 45
def isUserIdUnit (u : UInt16) : Bool := isCalendarIdUnit u || u == 58 || u == 64 || u == 47
def isTenantIdUnit (u : UInt16) : Bool := isLower u || isDigit u || u == 46 || u == 95 || u == 45
def isTzidUnit (u : UInt16) : Bool := isCalendarIdUnit u || u == 43 || u == 47
def isHexUnit (u : UInt16) : Bool := isDigit u || (65 ≤ u && u ≤ 70) || (97 ≤ u && u ≤ 102)

def calendarIdPattern : JsString → Bool := isName isAlnum isCalendarIdUnit 63
def userIdPattern : JsString → Bool := isName isAlnum isUserIdUnit 127
def tenantIdPattern : JsString → Bool := isName (fun u => isLower u || isDigit u) isTenantIdUnit 63
def tzidPattern : JsString → Bool := isName isAlnum isTzidUnit 127

def colorPattern : JsString → Bool
  | u :: us => u == 35 && us.length == 6 && us.all isHexUnit
  | [] => false

def requiredPattern (value : JsValue) (pattern : JsString → Bool) (field : String)
    (code : CalDavCode) : Except CalDavError JsString :=
  match value with
  | .string s => if pattern s then .ok s else fail (js field ++ js " is invalid") code 422
  | _ => fail (js field ++ js " is invalid") code 422

def canonicalTenantId (value : JsValue) : Except CalDavError JsString :=
  requiredPattern value tenantIdPattern "tenantId" .invalidTenant

def canonicalUserId (value : JsValue) (field : String) : Except CalDavError JsString :=
  requiredPattern value userIdPattern field .invalidUser

def canonicalCalendarSlug (value : JsValue) (field : String) : Except CalDavError JsString :=
  requiredPattern value calendarIdPattern field .invalidCalendarId

theorem requiredPattern_eq_ok {value : JsValue} {pattern : JsString → Bool} {field : String}
    {code : CalDavCode} {s : JsString} :
    requiredPattern value pattern field code = .ok s ↔ value = .string s ∧ pattern s := by
  unfold requiredPattern
  split
  · rename_i t
    by_cases h : pattern t
    · simp only [h, ↓reduceIte, Except.ok.injEq, JsValue.string.injEq]
      constructor
      · rintro rfl; exact ⟨rfl, h⟩
      · exact fun hs => hs.1
    · simp only [h, fail]
      simp only [Bool.false_eq_true, ↓reduceIte, reduceCtorEq, JsValue.string.injEq, false_iff,
        not_and]
      rintro rfl; exact h
  · rename_i h
    simp only [fail, reduceCtorEq, false_iff, not_and]
    rintro rfl; exact absurd rfl (h s)

/-- `assertDate`, as the time value of the date it returns. -/
def assertDate (host : Host) (value : JsValue) (field : String) : Except CalDavError Int :=
  let time := match value with
    | .date t => t
    | .string s => host.parseDate s
    | .number q => timeClip (Int.tdiv q.num q.den)
    | _ => none
  match time with
  | some t => .ok t
  | none => fail (js field ++ js " is invalid") .invalidTimestamp 422

/-- The only role that passes is `user`, so it is not kept. -/
structure CalDavActor where
  tenantId : JsString
  userId : JsString
  deriving DecidableEq

def actorRoles : List JsString := [js "provider", js "tenant_master", js "user", js "monitor"]

def normalizeActor (actor : JsValue) (tenantId : JsString) : Except CalDavError CalDavActor := do
  failIf (!actor.isObject) "an authenticated DAV actor is required" .authenticationRequired 401
  let actorTenantId ← canonicalTenantId (actor.get "tenantId")
  failIf (actorTenantId != tenantId) "cross-tenant DAV access is denied" .crossTenantDenied 403
  let userId ← canonicalUserId ((actor.get "userId").orElse (actor.get "actorId")) "actor.userId"
  failIf (!actorRoles.any (actor.get "role").isString) "actor role is invalid" .invalidActorRole 403
  failIf (!(actor.get "role").isString (js "user"))
    "CalDAV content requires an authenticated user scope" .contentScopeRequired 403
  return ⟨actorTenantId, userId⟩

theorem normalizeActor_eq_ok {actor : JsValue} {tenantId : JsString} {a : CalDavActor}
    (h : normalizeActor actor tenantId = .ok a) :
    a.tenantId = tenantId ∧ tenantIdPattern tenantId ∧ userIdPattern a.userId := by
  simp only [normalizeActor, bind_eq_ok, failIf_eq_ok, canonicalTenantId, canonicalUserId,
    requiredPattern_eq_ok, pure, Except.pure, Except.ok.injEq] at h
  obtain ⟨_, _, t, ⟨_, ht⟩, _, hne, u, ⟨_, hu⟩, _, _, _, _, rfl⟩ := h
  obtain rfl : t = tenantId := by simpa using hne
  exact ⟨rfl, ht, hu⟩

/-- A user of tenant `acme`, as a request carries it. -/
def sampleActor (userId : String) : JsValue :=
  .object [(js "tenantId", .string (js "acme")), (js "domain", .string (js "acme.example")),
    (js "userId", .string (js userId)), (js "role", .string (js "user"))]

example : normalizeActor (sampleActor "ada") (js "acme") = .ok ⟨js "acme", js "ada"⟩ := by decide

def canonicalCalendarKey (ownerUserId collectionId : JsString) : JsString :=
  ownerUserId ++ js "/" ++ collectionId

/-- A calendar id with its owner, or a collection id alone. -/
structure CalendarId where
  ownerUserId : Option JsString
  collectionId : JsString

def splitCalendarId (value : JsValue) : Except CalDavError CalendarId :=
  match value with
  | .string s =>
    match split s 47 with
    | [collection] => do
      let collectionId ← canonicalCalendarSlug (.string collection) "calendarId"
      return ⟨none, collectionId⟩
    | [owner, collection] => do
      let ownerUserId ← canonicalUserId (.string owner) "calendarId owner"
      let collectionId ← canonicalCalendarSlug (.string collection) "calendarId collection"
      return ⟨some ownerUserId, collectionId⟩
    | _ => fail (js "calendarId has an invalid scope") .invalidCalendarId 422
  | _ => fail (js "calendarId is required") .invalidCalendarId 422

theorem splitCalendarId_string {value : JsValue} {id : CalendarId} (h : splitCalendarId value = .ok id) :
    ∃ s, value = .string s := by
  cases value with
  | string s => exact ⟨s, rfl⟩
  | undefined | null | bool | number | nonFinite | date | array | object | other => cases h

/-- A calendar id with an owner is the key of the collection. -/
theorem splitCalendarId_owner {key owner : JsString} {id : CalendarId}
    (h : splitCalendarId (.string key) = .ok id) (howner : id.ownerUserId = some owner) :
    (userIdPattern owner ∧ calendarIdPattern id.collectionId) ∧
      key = canonicalCalendarKey owner id.collectionId := by
  simp only [splitCalendarId] at h
  split at h
  · simp only [bind_eq_ok, pure, Except.pure, Except.ok.injEq] at h
    obtain ⟨_, _, rfl⟩ := h
    cases howner
  · rename_i o c hparts
    simp only [bind_eq_ok, canonicalUserId, canonicalCalendarSlug, requiredPattern_eq_ok, pure,
      Except.pure, Except.ok.injEq, JsValue.string.injEq] at h
    obtain ⟨_, ⟨rfl, ho⟩, _, ⟨rfl, hc⟩, rfl⟩ := h
    cases howner
    refine ⟨⟨ho, hc⟩, ?_⟩
    have slash : js "/" = [47] := by decide
    have hkey : [47].intercalate (key.splitOn 47) = key := List.intercalate_splitOn 47
    rw [← split, hparts] at hkey
    simpa [canonicalCalendarKey, slash, List.intercalate_cons_cons] using hkey.symm
  · cases h

/-- A collection id has no slash, so the key determines owner and collection. -/
theorem canonicalCalendarKey_inj {o c o' c' : JsString} (hc : calendarIdPattern c)
    (hc' : calendarIdPattern c') (h : canonicalCalendarKey o c = canonicalCalendarKey o' c') :
    o = o' ∧ c = c' := by
  have noSlash {d : JsString} (hd : calendarIdPattern d) : 47 ∉ d.reverse := by
    have unit : ∀ u, isCalendarIdUnit u → u ≠ 47 := by
      rintro u hu rfl; exact absurd hu (by decide)
    unfold calendarIdPattern isName at hd
    split at hd
    · simp at hd
    · rename_i u us
      simp only [Bool.and_eq_true, List.all_eq_true] at hd
      obtain ⟨⟨hfirst, _⟩, hrest⟩ := hd
      have : isCalendarIdUnit u := by simp [isCalendarIdUnit, hfirst]
      simp only [List.mem_reverse, List.mem_cons, not_or]
      exact ⟨fun e => unit u this e.symm, fun hm => unit 47 (hrest 47 hm) rfl⟩
  have key (o c : JsString) (hn : 47 ∉ c.reverse) :
      (canonicalCalendarKey o c).reverse.splitOn 47 = c.reverse :: o.reverse.splitOn 47 := by
    have slash : js "/" = [47] := by decide
    rw [canonicalCalendarKey, slash, List.append_assoc, List.reverse_append, List.reverse_append]
    simp only [List.reverse_cons, List.reverse_nil, List.nil_append, List.append_assoc,
      List.singleton_append]
    exact List.splitOn_append_cons_self_of_not_mem hn _
  have hrev := congrArg (fun k => (List.reverse k).splitOn 47) h
  simp only [key o c (noSlash hc), key o' c' (noSlash hc'), List.cons.injEq, List.reverse_inj] at hrev
  obtain ⟨rfl, _⟩ := hrev
  exact ⟨by simpa [canonicalCalendarKey] using h, rfl⟩

structure TokenScope where
  tenantId : JsString
  ownerUserId : JsString
  collectionId : JsString
  deriving DecidableEq

def tokenPrefix : JsString := js "https://gulogulo.invalid/caldav/"

def makeToken (scope : TokenScope) (revision : Nat) : JsString :=
  tokenPrefix ++ encodeURIComponent scope.tenantId ++ js "/" ++
    encodeURIComponent scope.ownerUserId ++ js "/" ++ encodeURIComponent scope.collectionId ++
    js "/sync/" ++ decimal revision

/-- `TOKEN_PATTERN.exec`: the four groups. -/
def matchToken (s : JsString) : Option (JsString × JsString × JsString × JsString) :=
  if startsWith s tokenPrefix then
    match split (s.drop tokenPrefix.length) 47 with
    | [tenant, owner, collection, sync, revision] =>
      if tenant.isEmpty || owner.isEmpty || collection.isEmpty || sync != js "sync" ||
        !isDigits revision then none
      else some (tenant, owner, collection, revision)
    | _ => none
  else none

/-- The revision a token carries, for the collection it is presented to; a
request without a token starts at 0. -/
def decodeToken (value : JsValue) (scope : TokenScope) : Except CalDavError Nat :=
  match value with
  | .undefined | .null => .ok 0
  | .string s =>
    match matchToken s with
    | none => fail (js "syncToken is invalid") .invalidSyncToken 400
    | some (tenant, owner, collection, digits) =>
      match decodeURIComponent tenant, decodeURIComponent owner, decodeURIComponent collection with
      | some tenantId, some ownerUserId, some collectionId => do
        failIf (tenantId != scope.tenantId) "syncToken belongs to another tenant"
          .crossTenantDenied 403
        failIf (ownerUserId != scope.ownerUserId || collectionId != scope.collectionId)
          "syncToken belongs to another calendar collection" .syncScopeDenied 403
        failIf (decide (maxSafeInteger < parseDecimal digits)) "syncToken is invalid"
          .invalidSyncToken 400
        return parseDecimal digits
      | _, _, _ => fail (js "syncToken is invalid") .invalidSyncToken 400
  | _ => fail (js "syncToken is invalid") .invalidSyncToken 400

/-- The parts of a scope that a store accepts. -/
structure TokenScope.Valid (scope : TokenScope) : Prop where
  tenant : tenantIdPattern scope.tenantId
  owner : userIdPattern scope.ownerUserId
  collection : calendarIdPattern scope.collectionId

theorem isName_ascii {first rest : UInt16 → Bool} {max : Nat} {s : JsString}
    (hf : ∀ u, first u → u < 128) (hr : ∀ u, rest u → u < 128) (h : isName first rest max s) :
    s ≠ [] ∧ ∀ u ∈ s, u < 128 := by
  constructor
  · rintro rfl
    cases h
  · exact isName_units h hf hr

theorem isUserIdUnit_ascii (u : UInt16) (h : isUserIdUnit u) : u < 128 := by
  simp only [isUserIdUnit, isCalendarIdUnit, isAlnum, isAlpha, isUpper, isLower, isDigit,
    Bool.or_eq_true, Bool.and_eq_true, decide_eq_true_eq, beq_iff_eq, UInt16.le_iff_toNat_le,
    ← UInt16.toNat_inj, UInt16.lt_iff_toNat_lt] at h ⊢
  simp only [UInt16.reduceToNat] at h ⊢
  omega

theorem userIdPattern_ascii {s : JsString} (h : userIdPattern s) : s ≠ [] ∧ ∀ u ∈ s, u < 128 :=
  isName_ascii isAlnum_ascii isUserIdUnit_ascii h

theorem calendarIdPattern_ascii {s : JsString} (h : calendarIdPattern s) :
    s ≠ [] ∧ ∀ u ∈ s, u < 128 :=
  isName_ascii isAlnum_ascii (fun u hu => isUserIdUnit_ascii u (by simp [isUserIdUnit, hu])) h

theorem tenantIdPattern_ascii {s : JsString} (h : tenantIdPattern s) :
    s ≠ [] ∧ ∀ u ∈ s, u < 128 := by
  refine isName_ascii (fun u hu => isAlnum_ascii u ?_) (fun u hu => isUserIdUnit_ascii u ?_) h
  · simp only [isAlnum, isAlpha, Bool.or_eq_true] at hu ⊢; grind
  · simp only [isTenantIdUnit, isUserIdUnit, isCalendarIdUnit, isAlnum, isAlpha,
      Bool.or_eq_true] at hu ⊢
    grind

theorem matchToken_makeToken {scope : TokenScope} (h : scope.Valid) (revision : Nat) :
    matchToken (makeToken scope revision) =
      some (encodeURIComponent scope.tenantId, encodeURIComponent scope.ownerUserId,
        encodeURIComponent scope.collectionId, decimal revision) := by
  have rest : makeToken scope revision = tokenPrefix ++ (encodeURIComponent scope.tenantId ++ 47 ::
      (encodeURIComponent scope.ownerUserId ++ 47 :: (encodeURIComponent scope.collectionId ++ 47 ::
        (js "sync" ++ 47 :: decimal revision)))) := by
    have slash : js "/" = [47] := by decide
    have sync : js "/sync/" = 47 :: (js "sync" ++ [47]) := by decide
    simp [makeToken, slash, sync]
  have parts : split (encodeURIComponent scope.tenantId ++ 47 ::
      (encodeURIComponent scope.ownerUserId ++ 47 :: (encodeURIComponent scope.collectionId ++ 47 ::
        (js "sync" ++ 47 :: decimal revision)))) 47 =
      [encodeURIComponent scope.tenantId, encodeURIComponent scope.ownerUserId,
        encodeURIComponent scope.collectionId, js "sync", decimal revision] := by
    unfold split
    rw [List.splitOn_append_cons_self_of_not_mem (encodeURIComponent_no_slash _),
      List.splitOn_append_cons_self_of_not_mem (encodeURIComponent_no_slash _),
      List.splitOn_append_cons_self_of_not_mem (encodeURIComponent_no_slash _),
      List.splitOn_append_cons_self_of_not_mem (by decide),
      List.splitOn_eq_singleton (decimal_no_slash _)]
  obtain ⟨ht, hta⟩ := tenantIdPattern_ascii h.tenant
  obtain ⟨ho, hoa⟩ := userIdPattern_ascii h.owner
  obtain ⟨hc, hca⟩ := calendarIdPattern_ascii h.collection
  have hp : startsWith (makeToken scope revision) tokenPrefix = true := by
    rw [rest, startsWith, List.isPrefixOf_iff_prefix]; exact List.prefix_append ..
  rw [matchToken, hp, rest, List.drop_left, parts]
  simp [encodeURIComponent_ne_nil hta ht, encodeURIComponent_ne_nil hoa ho,
    encodeURIComponent_ne_nil hca hc, isDigits_decimal]

/-- What becomes of a token made for some scope when it is presented to a
collection: scope first, then the range of the revision. -/
theorem decodeToken_makeToken {made scope : TokenScope} (h : made.Valid) (revision : Nat) :
    decodeToken (.string (makeToken made revision)) scope = do
      failIf (made.tenantId != scope.tenantId) "syncToken belongs to another tenant"
        .crossTenantDenied 403
      failIf (made.ownerUserId != scope.ownerUserId || made.collectionId != scope.collectionId)
        "syncToken belongs to another calendar collection" .syncScopeDenied 403
      failIf (decide (maxSafeInteger < revision)) "syncToken is invalid" .invalidSyncToken 400
      return revision := by
  simp only [decodeToken, matchToken_makeToken h,
    decodeURIComponent_encode (tenantIdPattern_ascii h.tenant).2,
    decodeURIComponent_encode (userIdPattern_ascii h.owner).2,
    decodeURIComponent_encode (calendarIdPattern_ascii h.collection).2, parseDecimal_decimal]

/-- A token presented to the collection it was made for. -/
theorem decodeToken_self {scope : TokenScope} (h : scope.Valid) (revision : Nat) :
    decodeToken (.string (makeToken scope revision)) scope = do
      failIf (decide (maxSafeInteger < revision)) "syncToken is invalid" .invalidSyncToken 400
      return revision := by
  rw [decodeToken_makeToken h]
  simp [failIf]

theorem decodeToken_eq_ok {made scope : TokenScope} (h : made.Valid) {revision since : Nat}
    (hd : decodeToken (.string (makeToken made revision)) scope = .ok since) :
    made = scope ∧ since = revision := by
  rw [decodeToken_makeToken h] at hd
  simp only [bind_eq_ok, failIf_eq_ok, pure, Except.pure, Except.ok.injEq, bne_eq_false_iff_eq,
    Bool.or_eq_false_iff] at hd
  obtain ⟨_, ht, _, ⟨ho, hc⟩, _, _, rfl⟩ := hd
  cases made; cases scope; simp_all

def calculateEtag (host : Host) (tenantId calendarKey objectId canonicalText : JsString) : JsString :=
  let scopedInput := tenantId ++ [0] ++ calendarKey ++ [0] ++ objectId ++ [0] ++ canonicalText
  js "\"" ++ hex (host.sha256 (utf8 scopedInput)) ++ js "\""

def collectionEtag (host : Host) (displayName description updatedAt : JsString) : JsString :=
  let input := displayName ++ [0] ++ description ++ [0] ++ updatedAt
  js "\"" ++ hex (host.sha256 (utf8 input)) ++ js "\""

end GuloGulo.CalDav
