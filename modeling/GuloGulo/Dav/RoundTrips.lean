import GuloGulo.CalDav.Store
import GuloGulo.Js.Pattern
import GuloGulo.Dav.Routes

/-!
# What ids and hrefs lead back to

Every href is routed to the collection and the object it was given for. A
calendar id is split into owner and collection just if the owner's id has no
slash, which the pattern of user ids allows.
-/

namespace GuloGulo.Dav
open Js CalDav

/-- The calendar id of a collection, as the store and the server make it, leads
back to the collection wherever it is stored. -/
structure LeadsBack (tenantId ownerUserId collectionId : JsString) : Prop where
  splits : splitCalendarId (.string (canonicalCalendarKey ownerUserId collectionId)) = .ok ⟨some ownerUserId, collectionId⟩
  reaches : ∀ (s : CalDavStore) actor collection, s.collections.get (canonicalCalendarKey ownerUserId collectionId) = some collection →
    splitCalendarId (.string (canonicalCalendarKey ownerUserId collectionId)) >>= findCollection s actor = .ok (some collection)
  served : ∃ route, matchDavRoute (caldavCollectionHref tenantId ownerUserId collectionId) = some route ∧
    splitCalendarId (.string route.calendarId) = .ok ⟨some ownerUserId, collectionId⟩

/-- A text that has an escape, and is not empty. -/
structure Named (s : JsString) : Prop where
  wellFormed : toWellFormed s = s
  some' : s ≠ []

section
variable {root t o c x : JsString}

theorem decodeSegment_encode (h : Named x) : decodeSegment (encodeURIComponent x) = some x :=
  decodeURIComponent_encodeURIComponent h.wellFormed

theorem encode_ne_nil (h : Named x) : encodeURIComponent x ≠ [] := fun empty => h.some' (encodeURIComponent_eq_nil empty)

theorem split_escaped (x rest : JsString) :
    split (encodeURIComponent x ++ js "/" ++ rest) 47 = encodeURIComponent x :: split rest 47 := by
  have slash : js "/" = [47] := by decide
  rw [slash, List.append_assoc]
  exact List.splitOn_append_cons_self_of_not_mem (encodeURIComponent_no_slash x) rest

theorem segments_append (root rest : JsString) : segments root (root ++ rest) = split rest 47 := by
  have front : startsWith (root ++ rest) root = true := by
    rw [startsWith, List.isPrefixOf_iff_prefix]
    exact List.prefix_append _ _
  rw [segments, if_pos front, List.drop_left]

theorem segments_href (rest : JsString) (last : split rest 47 = [rest]) :
    segments root (collectionHref root t o c ++ rest) =
      [encodeURIComponent t, encodeURIComponent o, encodeURIComponent c, rest] := by
  have shape : collectionHref root t o c ++ rest = root ++ (encodeURIComponent t ++ js "/" ++
      (encodeURIComponent o ++ js "/" ++ (encodeURIComponent c ++ js "/" ++ rest))) := by
    simp [collectionHref, List.append_assoc]
  rw [shape, segments_append, split_escaped, split_escaped, split_escaped, last]

theorem split_encoded (x : JsString) : split (encodeURIComponent x) 47 = [encodeURIComponent x] :=
  List.splitOn_eq_singleton (encodeURIComponent_no_slash x)

attribute [local simp] objectPattern in
theorem objectPattern_object (ht : Named t) (ho : Named o) (hc : Named c) (hx : Named x) :
    objectPattern root (davObjectHref (collectionHref root t o c) x) =
      some (encodeURIComponent t, encodeURIComponent o, encodeURIComponent c, encodeURIComponent x) := by
  rw [objectPattern, davObjectHref, segments_href _ (split_encoded x)]
  simp [encode_ne_nil ht, encode_ne_nil ho, encode_ne_nil hc, encode_ne_nil hx]

theorem segments_collection :
    segments root (collectionHref root t o c) = [encodeURIComponent t, encodeURIComponent o, encodeURIComponent c, []] := by
  have shape : segments root (collectionHref root t o c ++ []) =
      [encodeURIComponent t, encodeURIComponent o, encodeURIComponent c, []] := segments_href [] rfl
  rwa [List.append_nil] at shape

theorem objectPattern_collection : objectPattern root (collectionHref root t o c) = none := by
  rw [objectPattern, segments_collection]
  simp

theorem collectionPattern_collection (ht : Named t) (ho : Named o) (hc : Named c) :
    collectionPattern root (collectionHref root t o c) =
      some (encodeURIComponent t, encodeURIComponent o, encodeURIComponent c) := by
  rw [collectionPattern, segments_collection]
  simp [encode_ne_nil ht, encode_ne_nil ho, encode_ne_nil hc]

/-- No path is below both roots. -/
theorem segments_other (rest : JsString) : segments caldavRoot (carddavRoot ++ rest) = [] := by
  have front : startsWith (carddavRoot ++ rest) caldavRoot = false := by
    have one : caldavRoot = [47, 100, 97, 118, 47, 99, 97] ++ js "lendars/" := by decide
    have two : carddavRoot = [47, 100, 97, 118, 47, 99, 111] ++ js "ntacts/" := by decide
    rw [one, two]
    rfl
  rw [segments, if_neg (by rw [front]; exact Bool.false_ne_true)]

/-- Nothing below the other root matches a calendar. -/
theorem no_calendar (rest : JsString) :
    objectPattern caldavRoot (carddavRoot ++ rest) = none ∧ collectionPattern caldavRoot (carddavRoot ++ rest) = none := by
  rw [objectPattern, collectionPattern, segments_other]
  exact ⟨rfl, rfl⟩

theorem carddav_shape : ∃ rest, carddavCollectionHref t o c = carddavRoot ++ rest := by
  refine ⟨encodeURIComponent t ++ js "/" ++ encodeURIComponent o ++ js "/" ++ encodeURIComponent c ++ js "/", ?_⟩
  simp [carddavCollectionHref, collectionHref, List.append_assoc]

theorem decodeObject_encode (kind : DavKind) (ht : Named t) (ho : Named o) (hc : Named c) (hx : Named x) :
    decodeObject kind (encodeURIComponent t, encodeURIComponent o, encodeURIComponent c, encodeURIComponent x) =
      some ⟨kind, .object, t, o, c, some x⟩ := by
  simp only [decodeObject, decodeSegment_encode ht, decodeSegment_encode ho, decodeSegment_encode hc,
    decodeSegment_encode hx]
  rfl

theorem decodeCollection_encode (kind : DavKind) (ht : Named t) (ho : Named o) (hc : Named c) :
    decodeCollection kind (encodeURIComponent t, encodeURIComponent o, encodeURIComponent c) =
      some ⟨kind, .collection, t, o, c, none⟩ := by
  simp only [decodeCollection, decodeSegment_encode ht, decodeSegment_encode ho, decodeSegment_encode hc]
  rfl

attribute [local simp] matchDavRoute in
/-- The href of a calendar collection leads back to it. -/
theorem caldavCollectionHref_routed (ht : Named t) (ho : Named o) (hc : Named c) :
    matchDavRoute (caldavCollectionHref t o c) = some ⟨.caldav, .collection, t, o, c, none⟩ := by
  simp only [matchDavRoute, caldavCollectionHref, objectPattern_collection, collectionPattern_collection ht ho hc]
  exact decodeCollection_encode .caldav ht ho hc

/-- The href of a calendar object leads back to it. -/
theorem caldavObjectHref_routed (ht : Named t) (ho : Named o) (hc : Named c) (hx : Named x) :
    matchDavRoute (davObjectHref (caldavCollectionHref t o c) x) = some ⟨.caldav, .object, t, o, c, some x⟩ := by
  simp only [matchDavRoute, caldavCollectionHref, objectPattern_object ht ho hc hx]
  exact decodeObject_encode .caldav ht ho hc hx

/-- The href of an address book leads back to it. -/
theorem carddavCollectionHref_routed (ht : Named t) (ho : Named o) (hc : Named c) :
    matchDavRoute (carddavCollectionHref t o c) = some ⟨.carddav, .collection, t, o, c, none⟩ := by
  obtain ⟨rest, shape⟩ : ∃ rest, carddavCollectionHref t o c = carddavRoot ++ rest := carddav_shape
  obtain ⟨object, collection⟩ := no_calendar rest
  rw [← shape] at object collection
  simp only [matchDavRoute, object, collection]
  simp only [carddavCollectionHref, objectPattern_collection, collectionPattern_collection ht ho hc]
  exact decodeCollection_encode .carddav ht ho hc

/-- The href of a contact leads back to it. -/
theorem carddavObjectHref_routed (ht : Named t) (ho : Named o) (hc : Named c) (hx : Named x) :
    matchDavRoute (davObjectHref (carddavCollectionHref t o c) x) = some ⟨.carddav, .object, t, o, c, some x⟩ := by
  obtain ⟨rest, shape⟩ : ∃ rest, carddavCollectionHref t o c = carddavRoot ++ rest := carddav_shape
  obtain ⟨object, collection⟩ := no_calendar (rest ++ encodeURIComponent x)
  rw [← List.append_assoc, ← shape] at object collection
  simp only [matchDavRoute, davObjectHref, object, collection]
  have found : objectPattern carddavRoot (davObjectHref (collectionHref carddavRoot t o c) x) =
      some (encodeURIComponent t, encodeURIComponent o, encodeURIComponent c, encodeURIComponent x) :=
    objectPattern_object ht ho hc hx
  simp only [davObjectHref] at found
  simp only [carddavCollectionHref, found]
  exact decodeObject_encode .carddav ht ho hc hx

theorem named_of_ascii (h : x ≠ [] ∧ ∀ u ∈ x, u < 128) : Named x := by
  refine ⟨?_, h.1⟩
  have clean : ∀ y : JsString, (∀ u ∈ y, u < 128) → toWellFormed y = y := by
    intro y ascii
    induction y with
    | nil => rfl
    | cons u y ih =>
      rw [List.forall_mem_cons] at ascii
      have small : u.toNat < 128 := UInt16.lt_iff_toNat_lt.mp ascii.1
      have high : isHighSurrogate u = false := by
        simp only [isHighSurrogate, Bool.and_eq_false_iff, decide_eq_false_iff_not, UInt16.le_iff_toNat_le,
          UInt16.reduceToNat]
        omega
      have low : isLowSurrogate u = false := by
        simp only [isLowSurrogate, Bool.and_eq_false_iff, decide_eq_false_iff_not, UInt16.le_iff_toNat_le,
          UInt16.reduceToNat]
        omega
      rw [toWellFormed_cons high low, ih ascii.2]
  exact clean x h.2

theorem no_slash_of_calendarId (h : calendarIdPattern c) : 47 ∉ c := by
  have unit : ∀ u, isCalendarIdUnit u → u ≠ 47 := by
    rintro u unit rfl
    exact absurd unit (by decide)
  unfold calendarIdPattern isName at h
  split at h
  · cases h
  · rename_i u us
    simp only [Bool.and_eq_true, List.all_eq_true] at h
    have first : isCalendarIdUnit u := by simp [isCalendarIdUnit, h.1.1]
    intro slash
    rcases List.mem_cons.mp slash with same | inside
    · exact unit u first same.symm
    · exact unit 47 (h.2 47 inside) rfl

theorem split_key (hc : calendarIdPattern c) : split (canonicalCalendarKey o c) 47 = split o 47 ++ [c] := by
  have slash : js "/" = [47] := by decide
  have last : split c 47 = [c] := List.splitOn_eq_singleton (no_slash_of_calendarId hc)
  rw [canonicalCalendarKey, slash, List.append_assoc, ← last]
  exact List.splitOn_append_cons_self o c

/-- A calendar id is split into owner and collection just if the owner has no slash. -/
theorem splits_iff (ho : userIdPattern o) (hc : calendarIdPattern c) :
    splitCalendarId (.string (canonicalCalendarKey o c)) = .ok ⟨some o, c⟩ ↔ 47 ∉ o := by
  constructor
  · intro h
    simp only [splitCalendarId] at h
    split at h
    · obtain ⟨_, _, alone⟩ := bind_eq_ok.mp h
      cases alone
    · rename_i owner collection parts
      rw [split_key hc] at parts
      have whole : split o 47 = [owner] := 
        (List.append_inj' (show split o 47 ++ [c] = [owner] ++ [collection] from parts) rfl).1
      have free : 47 ∉ owner := not_mem_of_mem_split (whole ▸ List.mem_singleton.mpr rfl)
      have joined : [47].intercalate (o.splitOn 47) = o := List.intercalate_splitOn 47
      rw [← split, whole, List.intercalate_singleton] at joined
      rwa [← joined]
    · cases h
  · intro free
    have parts : split (canonicalCalendarKey o c) 47 = [o, c] := by
      rw [split_key hc, split, List.splitOn_eq_singleton free]
      rfl
    have owner : canonicalUserId (.string o) "calendarId owner" = .ok o := requiredPattern_eq_ok.mpr ⟨rfl, ho⟩
    have collection : canonicalCalendarSlug (.string c) "calendarId collection" = .ok c :=
      requiredPattern_eq_ok.mpr ⟨rfl, hc⟩
    simp only [splitCalendarId, parts, owner, collection, ok_bind]
    rfl

end

/-- A calendar id leads back to its collection just if its owner's id has no
slash. Two collections have two ids, and every href leads back. -/
theorem ids_lead_back_iff {tenantId ownerUserId collectionId : JsString} (ht : tenantIdPattern tenantId)
    (ho : userIdPattern ownerUserId) (hc : calendarIdPattern collectionId) :
    (LeadsBack tenantId ownerUserId collectionId ↔ 47 ∉ ownerUserId) ∧
    (∀ ownerUserId' collectionId', calendarIdPattern collectionId' →
      canonicalCalendarKey ownerUserId collectionId = canonicalCalendarKey ownerUserId' collectionId' →
        ownerUserId = ownerUserId' ∧ collectionId = collectionId') ∧
    ∀ tenantId userId collectionId, Named tenantId → Named userId → Named collectionId →
      matchDavRoute (caldavCollectionHref tenantId userId collectionId) =
        some ⟨.caldav, .collection, tenantId, userId, collectionId, none⟩ ∧
      matchDavRoute (carddavCollectionHref tenantId userId collectionId) =
        some ⟨.carddav, .collection, tenantId, userId, collectionId, none⟩ ∧
      ∀ objectId, Named objectId →
        matchDavRoute (davObjectHref (caldavCollectionHref tenantId userId collectionId) objectId) =
          some ⟨.caldav, .object, tenantId, userId, collectionId, some objectId⟩ ∧
        matchDavRoute (davObjectHref (carddavCollectionHref tenantId userId collectionId) objectId) =
          some ⟨.carddav, .object, tenantId, userId, collectionId, some objectId⟩ := by
  refine ⟨?_, fun _ _ hc' => canonicalCalendarKey_inj hc hc', ?_⟩
  · have routed := caldavCollectionHref_routed (named_of_ascii (tenantIdPattern_ascii ht))
      (named_of_ascii (userIdPattern_ascii ho)) (named_of_ascii (calendarIdPattern_ascii hc))
    constructor
    · intro back
      exact (splits_iff ho hc).mp back.splits
    · intro free
      have splits := (splits_iff ho hc).mpr free
      refine ⟨splits, ?_, ⟨_, routed, splits⟩⟩
      intro s actor collection there
      rw [splits, ok_bind, findCollection]
      exact congrArg Except.ok there
  · intro tenantId userId collectionId ht ho hc
    exact ⟨caldavCollectionHref_routed ht ho hc, carddavCollectionHref_routed ht ho hc, fun objectId hx =>
      ⟨caldavObjectHref_routed ht ho hc hx, carddavObjectHref_routed ht ho hc hx⟩⟩

theorem ids_lead_back_iff_alice : LeadsBack (js "acme") (js "alice") (js "default") ∧
    matchDavRoute (js "/dav/calendars/acme/alice/default/lunch") =
      some ⟨.caldav, .object, js "acme", js "alice", js "default", some (js "lunch")⟩ := by
  have back := ids_lead_back_iff (show tenantIdPattern (js "acme") by decide)
    (show userIdPattern (js "alice") by decide) (show calendarIdPattern (js "default") by decide)
  exact ⟨back.1.mpr (by decide), by decide⟩

/-- The calendar of an owner `team/ops` is never reached by its id. -/
theorem id_leads_nowhere : ¬ ∀ tenantId ownerUserId collectionId, tenantIdPattern tenantId → userIdPattern ownerUserId →
    calendarIdPattern collectionId → LeadsBack tenantId ownerUserId collectionId := by
  intro back
  have free := (splits_iff (by decide) (by decide)).mp
    (back (js "acme") (js "team/ops") (js "default") (by decide) (by decide) (by decide)).splits
  exact free (by decide)

end GuloGulo.Dav
