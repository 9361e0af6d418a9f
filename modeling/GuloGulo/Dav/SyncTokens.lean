import GuloGulo.CalDav.Contract
import GuloGulo.CardDav.Contract
import GuloGulo.Js.Lines

/-!
# Sync tokens

The tokens of both stores, and the sync-token element a report carries one in.
`extractDavSyncToken` looks for the element with a regular expression: the
first `<` that has `sync-token` before the next `>`, text up to the next `<`,
and an end tag with `sync-token` right before its `>`.

* `parseSyncToken_makeSyncToken`: what becomes of a CardDAV token in any scope;
* `extractDavSyncToken_text`: the token of an element that no earlier tag hides;
* `syncTokens`: the two stores and the report together.
-/

namespace GuloGulo.Dav
open Js CalDav

def xmlEscapeDav (value : JsString) : JsString :=
  let value := replaceAll value (js "&") (js "&amp;")
  let value := replaceAll value (js "<") (js "&lt;")
  let value := replaceAll value (js ">") (js "&gt;")
  let value := replaceAll value (js "\"") (js "&quot;")
  replaceAll value (js "'") (js "&apos;")

/-- The units of the tokens: none of them is white space or has to be escaped. -/
def isTokenUnit (u : UInt16) : Bool :=
  isAlnum u || u == 45 || u == 46 || u == 95 || u == 37 || u == 58 || u == 47

structure TokenText (token : JsString) : Prop where
  some' : token ≠ []
  units : ∀ u ∈ token, isTokenUnit u = true

theorem isTokenUnit_plain {u : UInt16} (h : isTokenUnit u = true) :
    isWhiteSpace u = false ∧ u ≠ 38 ∧ u ≠ 60 ∧ u ≠ 62 ∧ u ≠ 34 ∧ u ≠ 39 := by
  have low : u.toNat < 128 := by
    simp only [isTokenUnit, isAlnum, isAlpha, isUpper, isLower, isDigit, Bool.or_eq_true, Bool.and_eq_true,
      decide_eq_true_eq, beq_iff_eq, UInt16.le_iff_toNat_le, ← UInt16.toNat_inj, UInt16.reduceToNat] at h
    omega
  have all : ∀ n < 128, isTokenUnit (UInt16.ofNat n) = true → isWhiteSpace (UInt16.ofNat n) = false ∧
      UInt16.ofNat n ≠ 38 ∧ UInt16.ofNat n ≠ 60 ∧ UInt16.ofNat n ≠ 62 ∧ UInt16.ofNat n ≠ 34 ∧ UInt16.ofNat n ≠ 39 := by
    decide +kernel
  have this := all u.toNat low
  rw [UInt16.ofNat_toNat] at this
  exact this h

theorem xmlEscapeDav_token {token : JsString} (h : TokenText token) : xmlEscapeDav token = token := by
  have absent {v : UInt16} (hv : isTokenUnit v = false) : v ∉ token := by
    intro inside
    have := h.units v inside
    rw [hv] at this
    cases this
  have kept {v : UInt16} (hv : isTokenUnit v = false) (r : JsString) : replaceAll token [v] r = token :=
    replaceAll_of_not_mem (absent hv)
  have amp : js "&" = [38] := rfl
  have lt : js "<" = [60] := rfl
  have gt : js ">" = [62] := rfl
  have quot : js "\"" = [34] := rfl
  have apos : js "'" = [39] := rfl
  rw [xmlEscapeDav, amp, lt, gt, quot, apos]
  simp only [kept (v := 38) rfl, kept (v := 60) rfl, kept (v := 62) rfl, kept (v := 34) rfl, kept (v := 39) rfl]

/-- What a letter of the pattern stands for under `iu`: U+017F and U+212A fold
to a letter too. -/
def foldCase (u : UInt16) : UInt16 :=
  if u = 0x17F then 115 else if u = 0x212A then 107 else asciiLower u

def elementName : JsString := js "sync-token"

/-- `[^>]*:?sync-token[^>]*>([^<]*)<\/[^>]*:?sync-token>` after a `<`, with the
group. -/
def matchElement (s : JsString) : Option JsString :=
  match cut s 62 with
  | some (tag, rest) =>
    if includes (tag.map foldCase) elementName then
      match cut rest 60 with
      | some (text, 47 :: closing) =>
        match cut closing 62 with
        | some (name, _) => if endsWith (name.map foldCase) elementName then some text else none
        | none => none
      | _ => none
    else none
  | none => none

def firstElement : JsString → Option JsString
  | [] => none
  | u :: rest => if u = 60 then (matchElement rest).or (firstElement rest) else firstElement rest

def extractDavSyncToken (xmlBody : JsString) : Option JsString :=
  ((firstElement xmlBody).map trim).filter fun token => !token.isEmpty

/-- A report with a sync-token element: what stands before and after it, its
namespace prefix with the colon, its attributes, the white space around the
token, and the white space in the end tag. -/
structure SyncReport where
  before : JsString
  qualifier : JsString
  attributes : JsString
  lead : JsString
  trail : JsString
  gap : JsString
  after : JsString
  qualifier_plain : 60 ∉ qualifier ∧ 62 ∉ qualifier
  attributes_apart : attributes = [] ∨ attributes.head?.any isWhiteSpace = true
  attributes_plain : 60 ∉ attributes
  lead_white : ∀ u ∈ lead, isWhiteSpace u = true
  trail_white : ∀ u ∈ trail, isWhiteSpace u = true
  gap_white : ∀ u ∈ gap, isWhiteSpace u = true

namespace SyncReport

/-- The start tag between its angle brackets. -/
def tag (r : SyncReport) : JsString := r.qualifier ++ elementName ++ r.attributes

/-- The element after its first `<`, and what follows it. -/
def element (r : SyncReport) (token : JsString) : JsString :=
  r.tag ++ 62 :: (r.lead ++ xmlEscapeDav token ++ r.trail ++
    60 :: 47 :: (r.qualifier ++ elementName ++ r.gap ++ 62 :: r.after))

def text (r : SyncReport) (token : JsString) : JsString := r.before ++ 60 :: r.element token

/-- What the pattern asks for beyond XML: no white space in the end tag, no `>`
in an attribute, and no match at a tag before the element. -/
structure Plain (r : SyncReport) (token : JsString) : Prop where
  gap : r.gap = []
  attributes : 62 ∉ r.attributes
  before : ∀ t, 60 :: t <:+ r.before → 62 ∈ t → matchElement (t ++ 60 :: r.element token) = none

end SyncReport

section
variable {r : SyncReport} {token : JsString}

theorem foldCase_elementName : elementName.map foldCase = elementName := by decide

theorem includes_tag (t : JsString) : includes ((t ++ r.tag).map foldCase) elementName = true := by
  have shape : (t ++ r.tag).map foldCase =
      (t ++ r.qualifier).map foldCase ++ (elementName ++ r.attributes.map foldCase) := by
    simp [SyncReport.tag, foldCase_elementName]
  rw [shape]
  exact includes_append _ (includes_self _ _)

theorem TokenText.no_bracket (h : TokenText token) : 60 ∉ token := by
  intro inside
  exact (isTokenUnit_plain (h.units 60 inside)).2.2.1 rfl

theorem isWhiteSpace_no_bracket {s : JsString} (h : ∀ u ∈ s, isWhiteSpace u = true) : 60 ∉ s := by
  intro inside
  exact absurd (h 60 inside) (by decide)

/-- At the tag of the element, and from any earlier `<` of the same tag. -/
theorem matchElement_tag (h : TokenText token) (plain : r.Plain token) {t : JsString} (ht : 62 ∉ t) :
    matchElement (t ++ r.element token) = some (r.lead ++ token ++ r.trail) := by
  have noBracket : 62 ∉ t ++ r.tag := by
    have named : 62 ∉ elementName := by decide
    simp [SyncReport.tag, ht, r.qualifier_plain.2, named, plain.attributes]
  have shape : t ++ r.element token = (t ++ r.tag) ++ 62 :: (r.lead ++ token ++ r.trail ++
      60 :: 47 :: (r.qualifier ++ elementName ++ 62 :: r.after)) := by
    simp [SyncReport.element, plain.gap, xmlEscapeDav_token h]
  have text : 60 ∉ r.lead ++ token ++ r.trail := by
    simp [isWhiteSpace_no_bracket r.lead_white, isWhiteSpace_no_bracket r.trail_white, h.no_bracket]
  have name : 62 ∉ r.qualifier ++ elementName := by
    have named : 62 ∉ elementName := by decide
    simp [r.qualifier_plain.2, named]
  have closes : endsWith ((r.qualifier ++ elementName).map foldCase) elementName = true := by
    rw [List.map_append, foldCase_elementName, endsWith, List.isSuffixOf_iff_suffix]
    exact List.suffix_append _ _
  unfold matchElement
  rw [shape, cut_append noBracket]
  simp only [includes_tag, ↓reduceIte, cut_append text, cut_append name, closes]

theorem firstElement_text (h : TokenText token) (plain : r.Plain token) :
    firstElement (r.text token) = some (r.lead ++ token ++ r.trail) := by
  have any (front : JsString) (hf : front <:+ r.before) :
      firstElement (front ++ 60 :: r.element token) = some (r.lead ++ token ++ r.trail) := by
    induction front with
    | nil =>
      have here : matchElement (r.element token) = _ := matchElement_tag h plain (t := []) List.not_mem_nil
      rw [List.nil_append, firstElement, if_pos rfl, here]
      rfl
    | cons u front ih =>
      have rest := ih ((List.suffix_cons u front).trans hf)
      rw [List.cons_append, firstElement, rest]
      split
      · rename_i bracket
        subst bracket
        by_cases closed : 62 ∈ front
        · rw [plain.before front hf closed]
          rfl
        · have inside : 62 ∉ front ++ [60] := by simp [closed]
          have here := matchElement_tag h plain inside
          rw [List.append_assoc, List.singleton_append] at here
          rw [here]
          rfl
      · rfl
  exact any r.before List.suffix_rfl

theorem trim_surrounded {lead s trail : JsString} (hl : ∀ u ∈ lead, isWhiteSpace u = true)
    (ht : ∀ u ∈ trail, isWhiteSpace u = true) (some' : s ≠ []) (hs : ∀ u ∈ s, isWhiteSpace u = false) :
    trim (lead ++ s ++ trail) = s := by
  have start {white t rest : JsString} (hw : ∀ u ∈ white, isWhiteSpace u = true) (ht : t ≠ [])
      (hp : ∀ u ∈ t, isWhiteSpace u = false) : trimStart (white ++ (t ++ rest)) = t ++ rest := by
    rw [trimStart, List.dropWhile_append_of_pos hw]
    cases t with
    | nil => exact absurd rfl ht
    | cons u t => rw [List.cons_append, List.dropWhile_cons, if_neg (by simp [hp u List.mem_cons_self])]
  rw [trim, List.append_assoc, start hl some' hs, List.reverse_append]
  have back : trimStart (trail.reverse ++ (s.reverse ++ [])) = s.reverse ++ [] :=
    start (fun u hu => ht u (List.mem_reverse.mp hu)) (by simpa using some') (fun u hu => hs u (List.mem_reverse.mp hu))
  rw [List.append_nil] at back
  rw [back, List.reverse_reverse]

/-- The token comes back out of the report. -/
theorem extractDavSyncToken_text (h : TokenText token) (plain : r.Plain token) :
    extractDavSyncToken (r.text token) = some token := by
  have trimmed := trim_surrounded r.lead_white r.trail_white h.some' fun u hu => (isTokenUnit_plain (h.units u hu)).1
  rw [extractDavSyncToken, firstElement_text h plain, Option.map_some, trimmed]
  simp [Option.filter, h.some']

end

theorem isTokenUnit_encodeByte {b : UInt8} (h : isUserIdUnit (UInt16.ofNat b.toNat) = true) :
    ∀ u ∈ encodeByte b, isTokenUnit u = true := by
  have all : ∀ n < 256, isUserIdUnit (UInt16.ofNat n) = true → (encodeByte (UInt8.ofNat n)).all isTokenUnit = true := by
    decide +kernel
  have this := List.all_eq_true.mp (all b.toNat b.toNat_lt h)
  rwa [UInt8.ofNat_toNat] at this

theorem isTokenUnit_encode {s : JsString} (ids : ∀ u ∈ s, isUserIdUnit u = true) :
    ∀ u ∈ encodeURIComponent s, isTokenUnit u = true := by
  have ascii : ∀ u ∈ s, u < 128 := fun u hu => isUserIdUnit_ascii u (ids u hu)
  intro u hu
  rw [encodeURIComponent, utf8_ascii ascii] at hu
  obtain ⟨b, hb, hu⟩ := List.mem_flatMap.mp hu
  obtain ⟨v, hv, rfl⟩ := List.mem_map.mp hb
  have small : v.toNat < 256 := by
    have := ascii v hv
    simp only [UInt16.lt_iff_toNat_lt, UInt16.reduceToNat] at this
    omega
  have same : UInt16.ofNat (UInt8.ofNat v.toNat).toNat = v := by
    rw [UInt8.toNat_ofNat_of_lt' small, UInt16.ofNat_toNat]
  exact isTokenUnit_encodeByte (by rw [same]; exact ids v hv) u hu

theorem isUserIdUnit_of_alnum {u : UInt16} (h : isAlnum u = true) : isUserIdUnit u = true := by
  simp [isUserIdUnit, isCalendarIdUnit, h]

theorem isUserIdUnit_of_calendar {u : UInt16} (h : isCalendarIdUnit u = true) : isUserIdUnit u = true := by
  simp [isUserIdUnit, h]

theorem isUserIdUnit_of_tenant {u : UInt16} (h : isTenantIdUnit u = true) : isUserIdUnit u = true := by
  simp only [isTenantIdUnit, Bool.or_eq_true, beq_iff_eq] at h
  simp only [isUserIdUnit, isCalendarIdUnit, isAlnum, isAlpha, Bool.or_eq_true, beq_iff_eq]
  grind

theorem isTokenUnit_decimal (n : Nat) : ∀ u ∈ decimal n, isTokenUnit u = true := by
  have digits := isDigits_decimal n
  rw [isDigits, Bool.and_eq_true, List.all_eq_true] at digits
  intro u hu
  simp [isTokenUnit, isAlnum, digits.2 u hu]

/-- A CalDAV token has nothing in it that XML escapes. -/
theorem makeToken_text {scope : TokenScope} (h : scope.Valid) (revision : Nat) :
    TokenText (makeToken scope revision) := by
  have tenant := isTokenUnit_encode (isName_units h.tenant
    (fun u hu => isUserIdUnit_of_tenant (by simp only [isTenantIdUnit, hu, Bool.true_or])) fun u => isUserIdUnit_of_tenant)
  have owner := isTokenUnit_encode (isName_units h.owner (fun u => isUserIdUnit_of_alnum) fun u => id)
  have collection := isTokenUnit_encode (isName_units h.collection (fun u => isUserIdUnit_of_alnum)
    fun u => isUserIdUnit_of_calendar)
  have front : ∀ u ∈ CalDav.tokenPrefix, isTokenUnit u = true := forall_of_all (by decide)
  have slash : ∀ u ∈ js "/", isTokenUnit u = true := forall_of_all (by decide)
  have sync : ∀ u ∈ js "/sync/", isTokenUnit u = true := forall_of_all (by decide)
  constructor
  · have : CalDav.tokenPrefix ≠ [] := by decide
    simp [makeToken, this]
  · simp only [makeToken, List.forall_mem_append]
    exact ⟨⟨⟨⟨⟨⟨⟨front, tenant⟩, slash⟩, owner⟩, slash⟩, collection⟩, sync⟩, isTokenUnit_decimal revision⟩

/-- The names a scope and an address book may have. -/
structure ValidBook (scope : CardDav.CardDavScope) (addressBookId : JsString) : Prop where
  tenant : CardDav.scopeIdPattern scope.tenantId = true
  user : CardDav.scopeIdPattern scope.userId = true
  book : CardDav.addressBookIdPattern addressBookId = true

section
variable {host : Host} {scope made : CardDav.CardDavScope} {addressBookId madeId : JsString}

theorem fingerprint_length (scope : CardDav.CardDavScope) (addressBookId : JsString) :
    (CardDav.scopeFingerprint host scope addressBookId).length = 22 := by
  rw [CardDav.scopeFingerprint, List.length_take, base64Url_length, host.sha256_length]
  rfl

theorem fingerprint_units (scope : CardDav.CardDavScope) (addressBookId : JsString) :
    ∀ u ∈ CardDav.scopeFingerprint host scope addressBookId, isBase64Url u = true :=
  fun u hu => base64Url_units _ u (List.mem_of_mem_take hu)

theorem makeSyncToken_text (scope : CardDav.CardDavScope) (addressBookId : JsString) (version : Nat) :
    TokenText (CardDav.makeSyncToken host scope addressBookId version) := by
  have front : ∀ u ∈ CardDav.tokenPrefix, isTokenUnit u = true := forall_of_all (by decide)
  have colon : ∀ u ∈ js ":", isTokenUnit u = true := forall_of_all (by decide)
  have fingerprint : ∀ u ∈ CardDav.scopeFingerprint host scope addressBookId, isTokenUnit u = true := by
    intro u hu
    have unit := fingerprint_units scope addressBookId u hu
    simp only [isBase64Url, Bool.or_eq_true, beq_iff_eq] at unit
    rcases unit with (unit | rfl) | rfl
    · simp [isTokenUnit, unit]
    · decide
    · decide
  constructor
  · have : CardDav.tokenPrefix ≠ [] := by decide
    simp [CardDav.makeSyncToken, this]
  · simp only [CardDav.makeSyncToken, List.forall_mem_append]
    exact ⟨⟨⟨front, fingerprint⟩, colon⟩, isTokenUnit_decimal version⟩

theorem matchSyncToken_makeSyncToken (version : Nat) :
    CardDav.matchSyncToken (CardDav.makeSyncToken host made madeId version) =
      some (CardDav.scopeFingerprint host made madeId, decimal version) := by
  have colon : js ":" = [58] := rfl
  have shape : CardDav.makeSyncToken host made madeId version = CardDav.tokenPrefix ++
      (CardDav.scopeFingerprint host made madeId ++ 58 :: decimal version) := by
    simp [CardDav.makeSyncToken, colon]
  have front : startsWith (CardDav.makeSyncToken host made madeId version) CardDav.tokenPrefix = true := by
    rw [shape, startsWith, List.isPrefixOf_iff_prefix]
    exact List.prefix_append _ _
  have length : (CardDav.scopeFingerprint host made madeId).length = 22 := fingerprint_length made madeId
  have units : (CardDav.scopeFingerprint host made madeId).all isBase64Url = true :=
    List.all_eq_true.mpr (fingerprint_units made madeId)
  unfold CardDav.matchSyncToken
  rw [if_pos front, shape, List.drop_left, ← List.drop_drop, List.drop_left, ← length, List.take_left, List.drop_left]
  simp [length, units, isDigits_decimal]

/-- What becomes of a token in a scope: the fingerprint first, then the range
of the version. -/
theorem parseSyncToken_makeSyncToken (version : Nat) :
    CardDav.parseSyncToken host (.string (CardDav.makeSyncToken host made madeId version)) scope addressBookId = do
      CardDav.failIf (CardDav.scopeFingerprint host made madeId != CardDav.scopeFingerprint host scope addressBookId)
        "syncToken is not valid for this tenant/user collection" .syncTokenInvalid 409
      CardDav.failIf (decide (maxSafeInteger < version)) "syncToken version is invalid" .syncTokenInvalid 409
      return version := by
  simp only [CardDav.parseSyncToken, matchSyncToken_makeSyncToken, parseDecimal_decimal]

theorem isName_noNul {first rest : UInt16 → Bool} {max : Nat} {s : JsString} (h : isName first rest max s = true)
    (hf : first 0 = false) (hr : rest 0 = false) : 0 ∉ s := by
  cases s with
  | nil => cases h
  | cons v s =>
    simp only [isName, Bool.and_eq_true, List.all_eq_true] at h
    intro inside
    rcases List.mem_cons.mp inside with rfl | inside
    · rw [hf] at h
      cases h.1.1
    · have := h.2 0 inside
      rw [hr] at this
      cases this

/-- No name has a NUL, so the key of a scope tells its names. -/
theorem keyFor_injective (h : ValidBook made madeId) (h' : ValidBook scope addressBookId)
    (same : CardDav.keyFor made madeId = CardDav.keyFor scope addressBookId) : made = scope ∧ madeId = addressBookId := by
  have noNul {s : JsString} (hs : CardDav.scopeIdPattern s = true) : 0 ∉ s := isName_noNul hs (by decide) (by decide)
  simp only [CardDav.keyFor, List.append_assoc, List.singleton_append] at same
  obtain ⟨tenant, same⟩ := append_separator_injective (noNul h.tenant) (noNul h'.tenant) same
  obtain ⟨user, book⟩ := append_separator_injective (noNul h.user) (noNul h'.user) same
  cases made
  cases scope
  subst tenant user book
  exact ⟨rfl, rfl⟩

end

/-- Tokens are read back in the scope they were made for and in no other (of
address books, where the digests of the two keys differ), nor by the other store;
their revision is in range; they need no escaping, and a report gives a token
back as it was made. -/
structure SyncTokens (host : Host) : Prop where
  caldav_round : ∀ scope : TokenScope, scope.Valid → ∀ revision ≤ maxSafeInteger,
    decodeToken (.string (makeToken scope revision)) scope = .ok revision
  caldav_scoped : ∀ made : TokenScope, made.Valid → ∀ scope ≠ made, ∀ revision,
    ∃ e, decodeToken (.string (makeToken made revision)) scope = .error e
  caldav_range : ∀ token scope revision, decodeToken token scope = .ok revision → revision ≤ maxSafeInteger
  carddav_round : ∀ scope addressBookId, ∀ revision ≤ maxSafeInteger,
    CardDav.parseSyncToken host (.string (CardDav.makeSyncToken host scope addressBookId revision)) scope addressBookId =
      .ok revision
  carddav_scoped : ∀ made madeId, ValidBook made madeId → ∀ scope addressBookId, ValidBook scope addressBookId →
    (scope, addressBookId) ≠ (made, madeId) →
    (CardDav.keyFor made madeId ≠ CardDav.keyFor scope addressBookId →
      CardDav.scopeFingerprint host made madeId ≠ CardDav.scopeFingerprint host scope addressBookId) →
    ∀ revision, ∃ e, CardDav.parseSyncToken host (.string (CardDav.makeSyncToken host made madeId revision))
      scope addressBookId = .error e
  carddav_range : ∀ token scope addressBookId revision,
    CardDav.parseSyncToken host token scope addressBookId = .ok revision → revision ≤ maxSafeInteger
  carddav_refuses : ∀ (made : TokenScope) revision scope addressBookId,
    ∃ e, CardDav.parseSyncToken host (.string (makeToken made revision)) scope addressBookId = .error e
  caldav_refuses : ∀ made madeId version (scope : TokenScope),
    ∃ e, decodeToken (.string (CardDav.makeSyncToken host made madeId version)) scope = .error e
  caldav_unescaped : ∀ scope : TokenScope, scope.Valid → ∀ revision,
    xmlEscapeDav (makeToken scope revision) = makeToken scope revision
  carddav_unescaped : ∀ scope addressBookId revision,
    xmlEscapeDav (CardDav.makeSyncToken host scope addressBookId revision) =
      CardDav.makeSyncToken host scope addressBookId revision
  caldav_report : ∀ scope : TokenScope, scope.Valid → ∀ revision (r : SyncReport),
    r.Plain (makeToken scope revision) →
    extractDavSyncToken (r.text (makeToken scope revision)) = some (makeToken scope revision)
  carddav_report : ∀ scope addressBookId revision (r : SyncReport),
    r.Plain (CardDav.makeSyncToken host scope addressBookId revision) →
    extractDavSyncToken (r.text (CardDav.makeSyncToken host scope addressBookId revision)) =
      some (CardDav.makeSyncToken host scope addressBookId revision)

theorem decodeToken_range {token : JsValue} {scope : TokenScope} {revision : Nat}
    (h : decodeToken token scope = .ok revision) : revision ≤ maxSafeInteger := by
  unfold decodeToken at h
  split at h
  · cases h
    exact Nat.zero_le _
  · cases h
    exact Nat.zero_le _
  · split at h
    · cases h
    · split at h
      · simp only [bind_eq_ok, CalDav.failIf_eq_ok, pure, Except.pure, Except.ok.injEq, decide_eq_false_iff_not] at h
        obtain ⟨_, _, _, _, _, range, rfl⟩ := h
        omega
      · cases h
  · cases h

theorem parseSyncToken_range {host : Host} {token : JsValue} {scope : CardDav.CardDavScope} {addressBookId : JsString}
    {revision : Nat} (h : CardDav.parseSyncToken host token scope addressBookId = .ok revision) :
    revision ≤ maxSafeInteger := by
  unfold CardDav.parseSyncToken at h
  split at h
  · split at h
    · simp only [bind_eq_ok, CardDav.failIf_eq_ok, pure, Except.pure, Except.ok.injEq, decide_eq_false_iff_not] at h
      obtain ⟨_, _, _, range, rfl⟩ := h
      omega
    · cases h
  · cases h

theorem error_of_not_ok {ε α : Type} {x : Except ε α} (h : ∀ a, x ≠ .ok a) : ∃ e, x = .error e := by
  cases x with
  | ok a => exact absurd rfl (h a)
  | error e => exact ⟨e, rfl⟩

theorem matchSyncToken_makeToken (made : TokenScope) (revision : Nat) :
    CardDav.matchSyncToken (makeToken made revision) = none := by
  have apart : startsWith (makeToken made revision) CardDav.tokenPrefix = false := by
    simp only [makeToken, List.append_assoc]
    rfl
  rw [CardDav.matchSyncToken, apart]
  rfl

theorem matchToken_makeSyncToken (host : Host) (made : CardDav.CardDavScope) (madeId : JsString) (version : Nat) :
    matchToken (CardDav.makeSyncToken host made madeId version) = none := by
  have apart : startsWith (CardDav.makeSyncToken host made madeId version) tokenPrefix = false := by
    simp only [CardDav.makeSyncToken, List.append_assoc]
    rfl
  rw [matchToken, apart]
  rfl

theorem syncTokens (host : Host) : SyncTokens host where
  caldav_round scope valid revision range := by
    rw [decodeToken_self valid, CalDav.failIf, decide_eq_false (Nat.not_lt.mpr range)]
    rfl
  caldav_scoped made valid scope other revision := by
    apply error_of_not_ok
    intro since ok
    exact other (decodeToken_eq_ok valid ok).1.symm
  caldav_range _ _ _ := decodeToken_range
  carddav_round scope addressBookId revision range := by
    rw [parseSyncToken_makeSyncToken, decide_eq_false (Nat.not_lt.mpr range)]
    simp [CardDav.failIf, pure, Except.pure]
  carddav_scoped made madeId valid scope addressBookId valid' other apart revision := by
    have keys : CardDav.keyFor made madeId ≠ CardDav.keyFor scope addressBookId := by
      intro same
      obtain ⟨rfl, rfl⟩ := keyFor_injective valid valid' same
      exact other rfl
    apply error_of_not_ok
    intro since ok
    rw [parseSyncToken_makeSyncToken] at ok
    simp only [bind_eq_ok, CardDav.failIf_eq_ok, bne_eq_false_iff_eq] at ok
    obtain ⟨_, same, _⟩ := ok
    exact apart keys same
  carddav_range _ _ _ _ := parseSyncToken_range
  carddav_refuses made revision scope addressBookId := by
    rw [CardDav.parseSyncToken, matchSyncToken_makeToken]
    exact ⟨_, rfl⟩
  caldav_refuses made madeId version scope := by
    rw [decodeToken, matchToken_makeSyncToken]
    exact ⟨_, rfl⟩
  caldav_unescaped scope valid revision := xmlEscapeDav_token (makeToken_text valid revision)
  carddav_unescaped scope addressBookId revision := xmlEscapeDav_token (makeSyncToken_text scope addressBookId revision)
  caldav_report scope valid revision r plain := extractDavSyncToken_text (makeToken_text valid revision) plain
  carddav_report scope addressBookId revision r plain :=
    extractDavSyncToken_text (makeSyncToken_text scope addressBookId revision) plain

/-- `<D:sync-collection xmlns:D="DAV:"><D:sync-token>…</D:sync-token ></D:sync-collection>`. -/
def spacedReport : SyncReport where
  before := js "<D:sync-collection xmlns:D=\"DAV:\">"
  qualifier := js "D:"
  attributes := []
  lead := []
  trail := []
  gap := js " "
  after := js "</D:sync-collection>"
  qualifier_plain := by decide
  attributes_apart := .inl rfl
  attributes_plain := by decide
  lead_white := forall_of_all (by decide)
  trail_white := forall_of_all (by decide)
  gap_white := forall_of_all (by decide)

/-- White space in the end tag hides the token. -/
theorem spacedReport_not_extracted :
    ¬ ∀ (scope : TokenScope) (revision : Nat) (r : SyncReport), scope.Valid → revision ≤ maxSafeInteger →
      extractDavSyncToken (r.text (makeToken scope revision)) = some (makeToken scope revision) := by
  intro h
  have valid : TokenScope.Valid ⟨js "acme", js "ada", js "work"⟩ := ⟨by decide, by decide, by decide⟩
  have extracted := h _ 5 spacedReport valid (by decide)
  exact absurd extracted (by decide +kernel)

end GuloGulo.Dav
