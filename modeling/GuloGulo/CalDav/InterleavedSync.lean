import GuloGulo.CalDav.Interleaving
import GuloGulo.Sql.Serial

/-!
# A client that syncs among writers

What a sync answers, object by object, is what some committed state held
between the moment the sync read the revision and its end. Whatever was
committed after that moment has a later revision than the token in the answer,
so the next sync brings it.
-/

namespace GuloGulo.CalDav.Postgres
open Js Data Sql
open Data.ChangeLog (Snapshot Delta applyResponse applyResponse_eq_patch patch)
open Sql.Program (check holds_mono holds_since holds_bind holds_send_bind holds_check_bind)

/-- What `id` became in a state between `first` and `d`. -/
def Seen (others : Rely Db RowId) (first : Db) (key : TokenScope) (id : JsString)
    (v : Option (JsString × JsString)) (d : Db) : Prop :=
  ∃ e, others.commit first e ∧ others.commit e d ∧ v = contents e key id

/-- The objects and deleted ids of an answer render a delta. -/
structure Renders (objects : List CalendarObjectView) (gone : List JsString)
    (delta : Delta JsString (JsString × JsString)) : Prop where
  live : ∀ id v, (id, v) ∈ objects.map CalendarObjectView.entry ↔ delta id = some (some v)
  gone : ∀ id, id ∈ gone ↔ delta id = some none

theorem Renders.cons_live {objects : List CalendarObjectView} {gone : List JsString}
    {delta : Delta JsString (JsString × JsString)} (h : Renders objects gone delta) {i : JsString}
    (fresh : delta i = none) {view : CalendarObjectView} {v : JsString × JsString} (hv : view.entry = (i, v)) :
    Renders (view :: objects) gone (Function.update delta i (some (some v))) := by
  constructor
  · intro id w
    rw [List.map_cons, List.mem_cons, hv, h.live]
    by_cases hid : id = i
    · subst hid
      simp [fresh, eq_comm]
    · simp [hid]
  · intro id
    rw [h.gone]
    by_cases hid : id = i
    · subst hid
      simp [fresh]
    · rw [Function.update_of_ne hid]

theorem Renders.cons_gone {objects : List CalendarObjectView} {gone : List JsString}
    {delta : Delta JsString (JsString × JsString)} (h : Renders objects gone delta) {i : JsString}
    (fresh : delta i = none) : Renders objects (i :: gone) (Function.update delta i (some none)) := by
  constructor
  · intro id w
    rw [h.live]
    by_cases hid : id = i
    · subst hid
      simp [fresh]
    · rw [Function.update_of_ne hid]
  · intro id
    rw [List.mem_cons, h.gone]
    by_cases hid : id = i
    · subst hid
      simp
    · simp [hid]

section
variable {host : Host} {collate : JsString → JsString → Bool} {actor options : JsValue}
  {others : Rely Db RowId}

theorem seen_stable {first d d' : Db} {key : TokenScope} {id : JsString} {v : Option (JsString × JsString)} (h : Seen others first key id v d)
    (later : others.commit d d') : Seen others first key id v d' := by
  obtain ⟨e, hfirst, hd, hv⟩ := h
  exact ⟨e, hfirst, others.commit_trans hd later, hv⟩

/-- What the loop has made of some of the changed objects. -/
structure Collected (others : Rely Db RowId) (first : Db) (key : TokenScope) (ids : List JsString)
    (answer : List CalendarObjectView × List JsString) (d : Db) (writes : Db → Db) : Prop where
  untouched : ∀ x, writes x = x
  delta : ∃ delta, Renders answer.1 answer.2 delta ∧ (∀ id, (delta id).isSome ↔ id ∈ ids) ∧
    ∀ id v, delta id = some v → Seen others first key id v d

theorem Collected.stable {first d d' : Db} {key : TokenScope} {ids : List JsString} {answer : List CalendarObjectView × List JsString}
    {writes : Db → Db} (h : Collected others first key ids answer d writes) (later : others.commit d d') :
    Collected others first key ids answer d' writes := by
  obtain ⟨delta, renders, ids, seen⟩ := h.delta
  exact ⟨h.untouched, delta, renders, ids, fun id v hv => seen_stable (seen id v hv) later⟩

theorem isSome_update {delta : Delta JsString (JsString × JsString)} {ids : List JsString}
    (h : ∀ id, (delta id).isSome ↔ id ∈ ids) (i : JsString) (v : Option (JsString × JsString)) (id : JsString) :
    (Function.update delta i (some v) id).isSome ↔ id ∈ i :: ids := by
  rw [List.mem_cons, ← h]
  by_cases hid : id = i
  · subst hid
    simp
  · simp [hid]

theorem seen_update {delta : Delta JsString (JsString × JsString)} {first d : Db} {key : TokenScope}
    (h : ∀ id v, delta id = some v → Seen others first key id v d) {i : JsString}
    {v : Option (JsString × JsString)} (hv : Seen others first key i v d) :
    ∀ id w, Function.update delta i (some v) id = some w → Seen others first key id w d := by
  intro id w hw
  by_cases hid : id = i
  · subst hid
    rw [Function.update_self, Option.some.injEq] at hw
    exact hw ▸ hv
  · rw [Function.update_of_ne hid] at hw
    exact h id w hw

theorem Collected.cons_gone {first d : Db} {key : TokenScope} {ids : List JsString}
    {objects : List CalendarObjectView} {gone : List JsString} {writes : Db → Db} {i : JsString}
    (h : Collected others first key ids (objects, gone) d writes) (fresh : i ∉ ids)
    (seen : Seen others first key i none d) :
    Collected others first key (i :: ids) (objects, i :: gone) d writes := by
  obtain ⟨delta, renders, hids, hseen⟩ := h.delta
  have hnone : delta i = none := by simpa [← hids] using fresh
  exact ⟨h.untouched, _, renders.cons_gone hnone, isSome_update hids i none, seen_update hseen seen⟩

theorem Collected.cons_live {first d : Db} {key : TokenScope} {ids : List JsString}
    {objects : List CalendarObjectView} {gone : List JsString} {writes : Db → Db} {i : JsString}
    {view : CalendarObjectView} {v : JsString × JsString}
    (h : Collected others first key ids (objects, gone) d writes) (fresh : i ∉ ids)
    (hv : view.entry = (i, v)) (seen : Seen others first key i (some v) d) :
    Collected others first key (i :: ids) (view :: objects, gone) d writes := by
  obtain ⟨delta, renders, hids, hseen⟩ := h.delta
  have hnone : delta i = none := by simpa [← hids] using fresh
  exact ⟨h.untouched, _, renders.cons_live hnone hv, isSome_update hids i (some v), seen_update hseen seen⟩

/-- The row an id is read as. -/
theorem contents_of_read (d : Db) (key : TokenScope) (id : JsString) :
    match (((d.find key).bind fun c => c.objects.lookup id).toList).head? with
    | some o => contents d key id = some (o.icalData, o.etag) ∧ o.objectId = id
    | none => contents d key id = none := by
  unfold contents
  cases d.find key with
  | none => rfl
  | some c =>
    rw [Option.bind_some, Option.bind_some, Collection.contents]
    cases ho : c.objects.lookup id with
    | none => rfl
    | some o => exact ⟨rfl, Table.key_of_lookup ho⟩

/-- The loop over the changed objects, with commits between its reads. -/
theorem readChanged_holds {first d : Db} {row : CollectionRow} {writes : Db → Db} {held : List RowId}
    (untouched : ∀ x, writes x = x) (after : others.commit first d) (changes : List (JsString × ChangeRow))
    (nodup : (changes.map Prod.fst).Nodup)
    (dead : ∀ p ∈ changes, p.2.deleted → Seen others first row.key p.1 none d) :
    (readChanged host row changes).Holds (Stmt.exec collate) Stmt.locks others
      (fun answer d w _ => Collected others first row.key (changes.map Prod.fst) answer d w) d writes held := by
  induction changes generalizing d writes held with
  | nil =>
    intro d' hd
    refine ⟨untouched, fun _ => none, ⟨by simp, by simp⟩, by simp, by simp⟩
  | cons change rest ih =>
    obtain ⟨i, change⟩ := change
    obtain ⟨fresh, nodup⟩ := List.nodup_cons.mp nodup
    have deadRest : ∀ p ∈ rest, p.2.deleted → Seen others first row.key p.1 none d :=
      fun p hp => dead p (List.mem_cons_of_mem _ hp)
    unfold readChanged
    split
    · rename_i hdeleted
      have gone : Seen others first row.key i none d := dead _ List.mem_cons_self hdeleted
      apply holds_bind
      refine holds_mono (holds_since (ih untouched after nodup deadRest)) ?_
      rintro ⟨objects, gone'⟩ e w l ⟨hlater, h⟩ e' he
      exact (h.cons_gone fresh (seen_stable gone hlater)).stable he.1
    · apply holds_send_bind
      intro d' hd r v hv
      rw [untouched d'] at hv
      cases hv
      have read := contents_of_read d' row.key i
      have after' := others.commit_trans after hd.1
      have deadRest' : ∀ p ∈ rest, p.2.deleted → Seen others first row.key p.1 none d' :=
        fun p hp hdeleted => seen_stable (deadRest p hp hdeleted) hd.1
      have now (v : Option (JsString × JsString)) (hv : v = contents d' row.key i) :
          Seen others first row.key i v d' := ⟨d', after', others.commit_refl d', hv⟩
      split
      · rename_i o ho
        apply holds_check_bind
        intro view hview
        apply holds_bind
        refine holds_mono (holds_since (ih untouched after' nodup deadRest')) ?_
        rintro ⟨objects, gone⟩ e w l ⟨hlater, h⟩ e' he
        rw [ho] at read
        have hentry := readObjectRow_entry hview
        rw [read.2] at hentry
        exact (h.cons_live fresh hentry (seen_stable (now _ read.1.symm) hlater)).stable he.1
      · rename_i ho
        apply holds_bind
        refine holds_mono (holds_since (ih untouched after' nodup deadRest')) ?_
        rintro ⟨objects, gone⟩ e w l ⟨hlater, h⟩ e' he
        rw [ho] at read
        exact (h.cons_gone fresh (seen_stable (now _ read.symm) hlater)).stable he.1

/-- The row of a collection as it was committed at some point since `start`. -/
structure ReadRow (others : Rely Db RowId) (start : Db) (row : CollectionRow) (d : Db) (writes : Db → Db) :
    Prop where
  untouched : ∀ x, writes x = x
  read : ∃ first c, others.commit start first ∧ others.commit first d ∧ first.find c.key = some c ∧ row = c.row

theorem ReadRow.stable {start d d' : Db} {row : CollectionRow} {writes : Db → Db}
    (h : ReadRow others start row d writes) (later : others.commit d d') :
    ReadRow others start row d' writes := by
  obtain ⟨first, c, hstart, hd, hc⟩ := h.read
  exact ⟨h.untouched, first, c, hstart, others.commit_trans hd later, hc⟩

theorem findCollectionRow_reads {start : Db} (a : CalDavActor) (id : CalendarId) {writes : Db → Db}
    {held : List RowId} (untouched : ∀ x, writes x = x) :
    (findCollectionRow a id false).Holds (Stmt.exec collate) Stmt.locks others
      (fun found d w _ => ∀ row ∈ found, ReadRow others start row d w) start writes held := by
  unfold findCollectionRow
  split
  · apply holds_send_bind
    intro d' hd r v hv
    rw [untouched d'] at hv
    cases hv
    intro d'' hd'' row hrow
    refine ReadRow.stable ⟨?_, ?_⟩ hd''.1
    · exact untouched
    · cases hf : d'.find _ with
      | none => rw [hf] at hrow; cases hrow
      | some c =>
        rw [hf] at hrow
        refine ⟨d', c, hd.1, others.commit_refl d', ?_, (Option.some.inj hrow).symm⟩
        rw [key_of_find hf]
        exact hf
  · apply holds_send_bind
    intro d' hd r v hv
    rw [untouched d'] at hv
    cases hv
    apply holds_check_bind
    intro _ _
    split
    · rename_i row hrow
      obtain ⟨c, hc, rfl⟩ := List.mem_map.mp (List.mem_filter.mp (List.mem_of_head? hrow)).1
      intro d'' hd'' row hrow
      cases hrow
      refine ReadRow.stable ⟨?_, d', c, hd.1, others.commit_refl d', Table.lookup_of_mem hc, rfl⟩ hd''.1
      exact untouched
    · intro d'' _ row hrow
      cases hrow

theorem resolveCollectionRow_reads {start : Db} {a : CalDavActor} {id : JsValue} {permission : Permission}
    {writes : Db → Db} {held : List RowId} (untouched : ∀ x, writes x = x) :
    (resolveCollectionRow a id false permission).Holds (Stmt.exec collate) Stmt.locks others
      (fun row d w _ => ReadRow others start row d w) start writes held := by
  apply holds_check_bind
  intro id' _
  apply holds_bind
  refine holds_mono (findCollectionRow_reads a id' untouched) ?_
  intro found d w l hfound
  cases found with
  | none => trivial
  | some row =>
    apply holds_check_bind
    intro _ _ d' hd
    exact (hfound row rfl).stable hd.1

/-- A client that may present a token of revision `r`: without one it has nothing. -/
structure Presents (token : JsValue) (m : Snapshot JsString (JsString × JsString)) (r : Nat)
    (c : Collection) : Prop where
  first : token.isNullish → m = fun _ => none
  later : ¬ token.isNullish → Follows m r c

theorem readDelta_holds (sub : ∀ {d d'}, others.commit d d' → Advance d d') {first d : Db} {c : Collection}
    (logged : first.Logged) (hc : first.find c.key = some c) (after : others.commit first d) (token : JsValue)
    (r : Nat) {writes : Db → Db} {held : List RowId} (untouched : ∀ x, writes x = x) :
    (readDelta host c.row token r).Holds (Stmt.exec collate) Stmt.locks others
      (fun answer d w _ => (∀ x, w x = x) ∧ ∀ m, Presents token m r c → ∀ id, Seen others first c.key id
        (applyResponse (answer.1.map CalendarObjectView.entry) answer.2 m id) d) d writes held := by
  unfold readDelta
  split
  · rename_i nullish
    apply holds_send_bind
    intro d' hd rows v hv
    rw [untouched d'] at hv
    obtain ⟨c', hc', grows⟩ := (sub (others.commit_trans after hd.1)).grows _ _ hc
    have hc'' : d'.find c.row.key = some c' := hc'
    simp only [Stmt.exec, hc''] at hv
    cases hv
    apply holds_check_bind
    intro views hviews e he
    refine ⟨untouched, ?_⟩
    intro m presents id
    obtain ⟨images, origins⟩ := mapM_eq_ok hviews
    have perm := List.perm_insertionSort (fun a b => collate a.objectId b.objectId = true) c'.objects.rows
    have renders : Renders views [] fun id => (c'.contents id).map some := by
      constructor
      · intro id v
        simp only [List.mem_map, Option.map_eq_some_iff, Option.some.injEq, exists_eq_right]
        constructor
        · rintro ⟨view, hview, hentry⟩
          obtain ⟨o, ho, hread⟩ := origins view hview
          rw [readObjectRow_entry hread] at hentry
          cases hentry
          rw [Collection.contents, Table.lookup_of_mem (perm.mem_iff.mp ho)]
          rfl
        · intro hv
          obtain ⟨o, ho, hv⟩ := Option.map_eq_some_iff.mp hv
          obtain ⟨view, hview, hread⟩ := images o (perm.mem_iff.mpr (Table.mem_of_lookup ho))
          exact ⟨view, hview, by rw [readObjectRow_entry hread, Table.key_of_lookup ho, hv]⟩
      · intro id
        simp
    refine ⟨d', others.commit_trans after hd.1, he.1, ?_⟩
    rw [presents.first nullish, applyResponse_eq_patch renders.live renders.gone, contents_of_find hc', patch]
    cases c'.contents id <;> rfl
  · rename_i token
    apply holds_send_bind
    intro d' hd rows v hv
    rw [untouched d'] at hv
    have after' := others.commit_trans after hd.1
    obtain ⟨c', hc', grows⟩ := (sub after').grows _ _ hc
    have hkey : c'.row.key = c.row.key := key_of_find hc'
    have hlogged : c'.Logged := advance_logged (sub after') logged _ _ hc'
    have hrun := run_selectChanges collate hlogged (show d'.find c'.row.key = some c' by rw [hkey]; exact hc') r
    rw [hkey, run_send] at hrun
    cases hrun.symm.trans hv
    have now (id : JsString) (v : Option (JsString × JsString)) (hv : v = c'.contents id) :
        Seen others first c.key id v d' :=
      ⟨d', after', others.commit_refl d', by rw [contents_of_find hc', hv]⟩
    refine holds_mono (holds_since (readChanged_holds untouched after' (latestByObject (c'.since r)).rows
      (latestByObject (c'.since r)).nodup ?_)) ?_
    · rintro ⟨id, ch⟩ hp hdeleted
      exact now id none (latest_deleted hlogged (OrderedMap.mem_rows.mp hp) hdeleted).symm
    · rintro ⟨objects, gone⟩ e w l ⟨later, h⟩
      refine ⟨h.untouched, ?_⟩
      intro m presents id
      obtain ⟨delta, renders, hids, hseen⟩ := h.delta
      rw [applyResponse_eq_patch renders.live renders.gone, patch]
      cases hdelta : delta id with
      | some v => exact hseen id v hdelta
      | none =>
        refine seen_stable (now id _ ?_) later
        rcases (grows_follows grows (presents.later token)).unseen id with same | ⟨ch, hch, hr, hid⟩
        · exact same
        · have absent : (latestByObject (c'.since r)).get id = none := by
            cases hget : (latestByObject (c'.since r)).get id with
            | none => rfl
            | some ch' =>
              have hmem := List.mem_map_of_mem (f := Prod.fst) (OrderedMap.mem_rows.mpr hget)
              rw [← hids, hdelta] at hmem
              cases hmem
          exact absurd hid (latest_missed absent ch hch hr)

/-- A complete answer: its token is that of a revision that was committed when
the sync had begun, and every object is as it was then or later. -/
structure Complete (others : Rely Db RowId) (start : Db) (token : JsValue) (answer : CalDavAnswer) (d : Db)
    (writes : Db → Db) (_ : List RowId) : Prop where
  untouched : ∀ x, writes x = x
  read : ∃ l first c r, answer = .objects l ∧ others.commit start first ∧ others.commit first d ∧
    first.find c.key = some c ∧ l.syncToken = makeToken c.key c.row.revision ∧
    decodeToken token c.key = .ok r ∧
    ∀ m, Presents token m r c → ∀ id, Seen others first c.key id
      (applyResponse (l.objects.map CalendarObjectView.entry) l.deletedObjectIds m id) d

theorem listCalendarObjects_holds (sub : ∀ {d d'}, others.commit d d' → Advance d d') (now : Int) {start : Db}
    (logged : start.Logged) :
    (program host now (.listCalendarObjects actor options)).Holds (Stmt.exec collate) Stmt.locks others
      (Complete others start (options.get "syncToken")) start (fun x => x) [] := by
  apply Program.holds_map
  apply destructure_holds
  apply holds_check_bind
  intro a _
  apply holds_bind
  refine holds_mono (resolveCollectionRow_reads fun _ => rfl) ?_
  intro row d w l h
  obtain ⟨first, c, hfirst, hd, hc, rfl⟩ := h.read
  apply holds_check_bind
  intro r hr
  apply holds_check_bind
  intro _ _
  apply holds_bind
  have first_logged : first.Logged := advance_logged (sub hfirst) logged
  refine holds_mono (holds_since
    (readDelta_holds sub first_logged hc hd (options.get "syncToken") r h.untouched)) ?_
  rintro ⟨objects, gone⟩ e w' l' ⟨hlater, untouched, seen⟩ e' he
  refine ⟨untouched, _, first, c, r, rfl, hfirst, ?_, hc, rfl, hr, ?_⟩
  · exact others.commit_trans (others.commit_trans hd hlater) he.1
  · intro m presents id
    exact seen_stable (seen m presents id) he.1

end

/-! ## The client -/

/-- What a client keeps between its syncs. -/
structure Client where
  token : Option JsString
  objects : Snapshot JsString (JsString × JsString)

/-- The options of a sync carry the client's token. -/
def Client.Sends (client : Client) (options : JsValue) : Prop :=
  match client.token with
  | none => (options.get "syncToken").isNullish
  | some token => options.get "syncToken" = .string token

/-- A client takes the objects and the token of an answer. -/
def Client.take (client : Client) (l : ObjectList) : Client where
  token := some l.syncToken
  objects := applyResponse (l.objects.map (·.entry)) l.deletedObjectIds client.objects

/-- A client without a token has nothing; with one, it misses only what the log
has past the token's revision. -/
def Client.InStep (client : Client) (db : Db) : Prop :=
  match client.token with
  | none => client.objects = fun _ => none
  | some token => ∃ c r, db.find c.key = some c ∧ token = makeToken c.key r ∧ Follows client.objects r c

theorem inStep_advance {client : Client} {d d' : Db} (h : client.InStep d) (later : Advance d d') :
    client.InStep d' := by
  unfold Client.InStep at h ⊢
  split
  · rename_i htoken
    rw [htoken] at h
    exact h
  · rename_i token htoken
    rw [htoken] at h
    obtain ⟨c, r, hc, rfl, follows⟩ := h
    obtain ⟨c', hc', grows⟩ := later.grows _ _ hc
    have hkey : c'.key = c.key := key_of_find hc'
    exact ⟨c', r, hkey.symm ▸ hc', by rw [hkey], grows_follows grows follows⟩

theorem presents_of_inStep {client : Client} {options : JsValue} (sends : client.Sends options) {start first : Db}
    (logged : start.Logged) (inStep : client.InStep start) (later : Advance start first) {c : Collection}
    (hc : first.find c.key = some c) {r : Nat} (hr : decodeToken (options.get "syncToken") c.key = .ok r) :
    Presents (options.get "syncToken") client.objects r c := by
  unfold Client.Sends at sends
  unfold Client.InStep at inStep
  cases htoken : client.token with
  | none =>
    rw [htoken] at sends inStep
    exact ⟨fun _ => inStep, fun given => absurd sends given⟩
  | some token =>
    rw [htoken] at sends inStep
    obtain ⟨c₀, r₀, hc₀, rfl, follows⟩ := inStep
    refine ⟨fun nullish => ?_, fun _ => ?_⟩
    · rw [show options.get "syncToken" = _ from sends] at nullish
      cases nullish
    · rw [show options.get "syncToken" = _ from sends] at hr
      obtain ⟨hkey, rfl⟩ := decodeToken_eq_ok (logged _ _ hc₀).valid hr
      obtain ⟨c₁, hc₁, grows⟩ := later.grows _ _ hc₀
      rw [hkey] at hc₁
      obtain rfl : c₁ = c := Option.some.inj (hc₁.symm.trans hc)
      exact grows_follows grows follows

/-- The client after a complete answer, when all objects are as of some time
since the revision was read. -/
theorem take_inStep {client : Client} {options : JsValue} (sends : client.Sends options) {start d : Db}
    (logged : start.Logged) (inStep : client.InStep start) {l : ObjectList} {writes : Db → Db} {held : List RowId}
    (complete : Complete amongWriters start (options.get "syncToken") (.objects l) d writes held) :
    (client.take l).InStep d := by
  obtain ⟨l', first, c, r, answer, hfirst, hd, hc, htoken, hr, seen⟩ := complete.read
  cases answer
  obtain ⟨c', hc', grows⟩ := hd.grows _ _ hc
  have hkey : c'.key = c.key := key_of_find hc'
  refine ⟨c', c.row.revision, hkey.symm ▸ hc', by rw [htoken, hkey], grows_revision grows, ?_⟩
  intro id
  obtain ⟨e, hfe, hed, hv⟩ := seen _ (presents_of_inStep sends logged inStep hfirst hc hr) id
  obtain ⟨ce, hce, growse⟩ := hfe.grows _ _ hc
  obtain ⟨c'', hc'', growsd⟩ := hed.grows _ _ hce
  obtain rfl : c'' = c' := Option.some.inj (hc''.symm.trans hc')
  rcases (grows_follows growsd (.now ce)).unseen id with same | ⟨ch, hch, hrev, hid⟩
  · exact .inl (hv.trans ((congrFun (contents_of_find hce) id).trans same))
  · exact .inr ⟨ch, hch, Nat.lt_of_le_of_lt (grows_revision growse) hrev, hid⟩

/-- Nothing was committed meanwhile: the client has the objects as they are. -/
theorem take_current {client : Client} {options : JsValue} (sends : client.Sends options) {start d : Db}
    (logged : start.Logged) (inStep : client.InStep start) {l : ObjectList} {writes : Db → Db} {held : List RowId}
    (complete : Complete undisturbed start (options.get "syncToken") (.objects l) d writes held) :
    ∃ c, d.find c.key = some c ∧ (client.take l).token = some (makeToken c.key c.row.revision) ∧
      (client.take l).objects = c.contents := by
  obtain ⟨l', first, c, r, answer, rfl, rfl, hc, htoken, hr, seen⟩ := complete.read
  cases answer
  refine ⟨c, hc, congrArg some htoken, ?_⟩
  funext id
  obtain ⟨e, rfl, _, hv⟩ := seen _ (presents_of_inStep sends logged inStep (.refl _) hc hr) id
  exact hv.trans (congrFun (contents_of_find hc) id)

/-! ## Any interleaving -/

/-- A database with its open transactions, the client's under `none`, and the client. -/
structure System (ι : Type) where
  server : Server (Option ι) (Thrown CalDavError) Stmt.Rows Db RowId CalDavAnswer
  client : Client

def Client.after (client : Client) : Event (Thrown CalDavError) Stmt.Rows CalDavAnswer → Client
  | .commits (.objects l) => client.take l
  | _ => client

/-- No open transactions, and a client that has not synced yet. -/
def System.initial (ι : Type) (db : Db) : System ι := ⟨⟨db, fun _ => none⟩, ⟨none, fun _ => none⟩⟩

/-- What the open transactions promise. -/
def promise {ι : Type} (client : Client) : Option ι → CalDavAnswer → Db → (Db → Db) → List RowId → Prop
  | some _ => Commits
  | none => fun answer d writes _ =>
    (∀ x, writes x = x) ∧ ∀ l, answer = .objects l → (client.take l).InStep d

theorem promise_commits {ι : Type} {client : Client} (i : Option ι) (answer : CalDavAnswer) (d : Db) (writes : Db → Db)
    (held : List RowId) (h : promise client i answer d writes held) : amongWriters.Commits d writes held := by
  cases i with
  | some i => exact h
  | none =>
    obtain ⟨untouched, _⟩ := h
    refine ⟨?_, fun k _ => ?_⟩
    · rw [untouched]
      exact amongWriters.commit_refl d
    · rw [untouched]
      exact amongWriters.same_refl k d

section
variable {ι : Type} [DecidableEq ι] (host : Host) (collate : JsString → JsString → Bool)

/-- Writers write objects, whatever their arguments; the client syncs, with the
token of its last answer. -/
inductive System.Step (s : System ι) :
    Option ι → Event (Thrown CalDavError) Stmt.Rows CalDavAnswer → System ι → Prop where
  | writer (i : ι) (e : Event (Thrown CalDavError) Stmt.Rows CalDavAnswer)
      (server : Server (Option ι) (Thrown CalDavError) Stmt.Rows Db RowId CalDavAnswer)
      (writes : ∀ p, e = .begins p → ∃ now call, IsObjectWrite call ∧ p = program host now call)
      (step : s.server.Step (Stmt.exec collate) Stmt.locks (some i) e server) :
      Step s (some i) e { s with server }
  | client (e : Event (Thrown CalDavError) Stmt.Rows CalDavAnswer)
      (server : Server (Option ι) (Thrown CalDavError) Stmt.Rows Db RowId CalDavAnswer)
      (syncs : ∀ p, e = .begins p → ∃ now actor options, s.client.Sends options ∧
        p = program host now (.listCalendarObjects actor options))
      (step : s.server.Step (Stmt.exec collate) Stmt.locks none e server) :
      Step s none e ⟨server, s.client.after e⟩

structure System.Sound (s : System ι) : Prop where
  logged : s.server.committed.Logged
  inStep : s.client.InStep s.server.committed
  server : s.server.Sound (Stmt.exec collate) Stmt.locks amongWriters (promise s.client)

variable {host collate}

theorem system_step_sound {s s' : System ι} {who : Option ι}
    {e : Event (Thrown CalDavError) Stmt.Rows CalDavAnswer} (sound : s.Sound collate)
    (step : s.Step host collate who e s') : s'.Sound collate := by
  cases step with
  | writer i _ server writes step =>
    have begins (p : CalDavProgram CalDavAnswer) (hp : e = .begins p) :
        p.Holds (Stmt.exec collate) Stmt.locks amongWriters (promise s.client (some i)) s.server.committed
          (fun x => x) [] := by
      obtain ⟨now, call, write, rfl⟩ := writes p hp
      exact writer_holds write sound.logged
    have advance := Server.step_commit sound.server step promise_commits
    exact ⟨advance_logged advance sound.logged, inStep_advance sound.inStep advance,
      Server.step_sound sound.server step begins promise_commits⟩
  | client _ server syncs step =>
    have begins (p : CalDavProgram CalDavAnswer) (hp : e = .begins p) :
        p.Holds (Stmt.exec collate) Stmt.locks amongWriters (promise s.client (none : Option ι))
          s.server.committed
          (fun x => x) [] := by
      obtain ⟨now, actor, options, sends, rfl⟩ := syncs p hp
      refine holds_mono (listCalendarObjects_holds (fun h => h) now sound.logged) ?_
      intro answer d writes held complete
      refine ⟨complete.untouched, ?_⟩
      rintro l rfl
      exact take_inStep sends sound.logged sound.inStep complete
    have advance := Server.step_commit sound.server step promise_commits
    have logged := advance_logged advance sound.logged
    have inStep := inStep_advance sound.inStep advance
    have served := Server.step_sound sound.server step begins promise_commits
    cases e with
    | commits answer =>
      obtain ⟨writes, held, ⟨untouched, taken⟩, committed, closed⟩ := Server.commits_post sound.server step
      refine ⟨logged, ?_, Server.sound_of_closed served closed ?_⟩
      · cases answer with
        | objects l =>
          show (s.client.take l).InStep server.committed
          rw [committed, untouched]
          exact taken l rfl
        | _ => exact inStep
      · intro j hj
        cases j with
        | none => exact absurd rfl hj
        | some j => rfl
    | begins | sends | rollsBack => exact ⟨logged, inStep, served⟩

theorem reachable_sound {s s' : System ι} (sound : s.Sound collate)
    (run : Relation.ReflTransGen (fun a b => ∃ who e, a.Step host collate who e b) s s') : s'.Sound collate := by
  induction run with
  | refl => exact sound
  | tail _ step ih =>
    obtain ⟨who, e, step⟩ := step
    exact system_step_sound ih step

/-- A sync under way, with nothing committed since it began. -/
def System.Undisturbed (collate : JsString → JsString → Bool) (s : System ι) : Prop :=
  ∀ session, s.server.sessions none = some session → ∃ options, s.client.Sends options ∧
    session.Holds (Stmt.exec collate) Stmt.locks undisturbed
      (Complete undisturbed s.server.committed (options.get "syncToken")) s.server.committed

theorem begins_undisturbed {s s' : System ι} {p : CalDavProgram CalDavAnswer} (sound : s.Sound collate)
    (step : s.Step host collate none (.begins p) s') : s'.Undisturbed collate := by
  cases step with
  | client _ server syncs step =>
    obtain ⟨now, actor, options, sends, rfl⟩ := syncs p rfl
    cases step with
    | begins _ closed =>
      intro session hsession
      simp only [Function.update_self, Option.some.injEq] at hsession
      subst hsession
      refine ⟨options, sends, listCalendarObjects_holds ?_ now sound.logged⟩
      rintro d d' rfl
      exact .refl d

theorem quiet_undisturbed {s s' : System ι} {who : Option ι}
    {e : Event (Thrown CalDavError) Stmt.Rows CalDavAnswer} (quiet : ∀ a, e ≠ .commits a)
    (sound : s.Sound collate) (still : s.Undisturbed collate) (step : s.Step host collate who e s') :
    s'.Undisturbed collate := by
  cases step with
  | writer i _ server writes step =>
    intro session hsession
    rw [Server.step_others step (by simp)] at hsession
    obtain ⟨options, sends, holds⟩ := still session hsession
    refine ⟨options, sends, ?_⟩
    rw [Server.step_committed step quiet]
    exact holds
  | client _ server syncs step =>
    cases e with
    | begins p => exact begins_undisturbed sound (.client _ server syncs step)
    | commits a => exact absurd rfl (quiet a)
    | sends =>
      cases step with
      | sends session next running sent =>
        intro t ht
        simp only [Function.update_self, Option.some.injEq] at ht
        subst ht
        obtain ⟨options, sends, holds⟩ := still session running
        exact ⟨options, sends, Session.holds_sends holds sent⟩
    | rollsBack =>
      cases step with
      | rollsBack session running =>
        intro t ht
        simp at ht

/-- The client that syncs while nothing is committed has the calendar as it is
committed, whatever was committed between and during its syncs before. -/
theorem listCalendarObjects_loses_no_update {tenants : List JsString} {db : Db}
    (made : Run host collate (fun _ _ _ => True) (.empty tenants) db) {s s₁ s₂ s₃ : System ι}
    (run : Relation.ReflTransGen (fun a b => ∃ who e, a.Step host collate who e b) (.initial ι db) s)
    {p : CalDavProgram CalDavAnswer} (begins : s.Step host collate none (.begins p) s₁)
    (quiet : Relation.ReflTransGen
      (fun a b => ∃ who e, (∀ answer, e ≠ .commits answer) ∧ a.Step host collate who e b) s₁ s₂)
    {answer : CalDavAnswer} (answers : s₂.Step host collate none (.commits answer) s₃) :
    ∃ c, s₃.server.committed.find c.key = some c ∧
      s₃.client.token = some (makeToken c.key c.row.revision) ∧ s₃.client.objects = c.contents := by
  have initial : (System.initial ι db).Sound collate := by
    refine ⟨run_logged made (empty_sound host tenants).logged, rfl, ?_, ?_⟩
    · intro i session hi
      cases hi
    · intro i j a b _ ha
      cases ha
  have sound := reachable_sound initial run
  have during : s₂.Sound collate ∧ s₂.Undisturbed collate := by
    clear answers
    induction quiet with
    | refl => exact ⟨system_step_sound sound begins, begins_undisturbed sound begins⟩
    | tail _ step ih =>
      obtain ⟨who, e, quiet, step⟩ := step
      exact ⟨system_step_sound ih.1 step, quiet_undisturbed quiet ih.1 ih.2 step⟩
  obtain ⟨sound₂, still⟩ := during
  cases answers with
  | client _ server syncs step =>
    cases step with
    | commits _ writes held done =>
      obtain ⟨options, sends, holds⟩ := still _ done
      have complete := Session.holds_done holds
      obtain ⟨l, _, _, _, rfl, _⟩ := complete.read
      show ∃ c, (writes s₂.server.committed).find c.key = some c ∧ (s₂.client.take l).token = _ ∧ _
      rw [complete.untouched]
      exact take_current sends sound₂.logged sound₂.inStep complete

/-- A history in which the client does not commit is one among the writers. -/
theorem history_interleaves {client : Client} {programs : Option ι → CalDavProgram CalDavAnswer}
    (syncs : ∃ now actor options, client.Sends options ∧ programs none = program host now (.listCalendarObjects actor options))
    (writes : ∀ i, ∃ now call, IsObjectWrite call ∧ programs (some i) = program host now call)
    {s t : Server (Option ι) (Thrown CalDavError) Stmt.Rows Db RowId CalDavAnswer} {h : List (Option ι × CalDavAnswer)}
    (history : Server.History (Stmt.exec collate) Stmt.locks programs s h t) (others : ∀ x ∈ h, x.1 ≠ none) :
    Relation.ReflTransGen (fun a b => ∃ who e, a.Step host collate who e b)
      (⟨s, client⟩ : System ι) ⟨t, client⟩ := by
  induction history with
  | start => exact .refl
  | quiet before step still begins ih =>
    rename_i h t u i e
    refine .tail (ih others) ⟨i, e, ?_⟩
    cases i with
    | some i =>
      refine .writer i e u (fun p hp => ?_) step
      rw [begins p hp]
      exact writes i
    | none =>
      have unchanged : client.after e = client := by
        cases e with
        | commits a => exact absurd rfl (still a)
        | begins | sends | rollsBack => rfl
      have synced : System.Step host collate ⟨t, client⟩ none e ⟨u, client.after e⟩ := by
        refine .client e u (fun p hp => ?_) step
        rw [begins p hp]
        exact syncs
      rw [unchanged] at synced
      exact synced
  | commits before step ih =>
    rename_i h t u i a
    have earlier := ih fun x hx => others x (List.mem_append_left _ hx)
    cases i with
    | none => exact absurd rfl (others (none, a) (List.mem_append_right _ (List.mem_singleton_self _)))
    | some i => exact .tail earlier ⟨_, _, .writer i _ u (fun p hp => by cases hp) step⟩

end

/-- The client lists its calendar, and a writer creates a second object. -/
def listsAndWrites : Option Unit → CalDavProgram CalDavAnswer
  | none => program asciiHost 0 (.listCalendarObjects (sampleActor "ada") (sampleOptions [("calendarId", js "work")]))
  | some () => program asciiHost 0 (createInWork "b" eventB)

/-- The token of a sync with the writer's commit after its first statement, and of the next sync. -/
def syncTokens : Except (Thrown CalDavError) (Option (JsString × JsString)) := do
  let (_, d) ← (listsAndWrites (some ())).run (Stmt.exec fun _ _ => true) (sampleDb firstCalls)
  match (listsAndWrites none).interrupted (Stmt.exec fun _ _ => true) Stmt.locks (sampleDb firstCalls) d with
  | some (.ok (.objects l, f)) =>
    let (l', _) ← (listCalendarObjects asciiHost (sampleActor "ada") (workSince 1)).run (Stmt.exec fun _ _ => true) f
    return some (l.syncToken, l'.syncToken)
  | _ => return none

/-- The writer commits after the client has read the revision. -/
theorem listsAndWrites_ends : ∃ written d l f l' f',
    (listsAndWrites (some ())).run (Stmt.exec fun _ _ => true) (sampleDb firstCalls) = .ok (written, d) ∧
    (listsAndWrites none).interrupted (Stmt.exec fun _ _ => true) Stmt.locks (sampleDb firstCalls) d =
      some (.ok (.objects l, f)) ∧ l.syncToken = makeToken workScope 1 ∧
    (listCalendarObjects asciiHost (sampleActor "ada") (workSince 1)).run (Stmt.exec fun _ _ => true) f = .ok (l', f') ∧
    l'.syncToken = makeToken workScope 2 := by
  have runs : syncTokens = .ok (some (makeToken workScope 1, makeToken workScope 2)) := by decide +kernel
  obtain ⟨⟨written, d⟩, between, runs⟩ := bind_eq_ok.mp runs
  dsimp only at runs
  split at runs
  · rename_i l f around
    obtain ⟨⟨l', f'⟩, listed, tokens⟩ := bind_eq_ok.mp runs
    obtain ⟨first, second⟩ := Prod.mk.inj (Option.some.inj (Except.ok.inj tokens))
    exact ⟨written, d, l, f, l', f', between, around, first, listed, second⟩
  · cases runs

/-- A writer commits in the middle of the first sync, and the second brings what it wrote. -/
theorem listCalendarObjects_loses_no_update_second :
    ∃ s : System Unit, s.client.token = some (makeToken workScope 2) ∧
      ∃ c, s.server.committed.find c.key = some c ∧ s.client.token = some (makeToken c.key c.row.revision) ∧
        s.client.objects = c.contents := by
  have made : Run asciiHost (fun _ _ => true) (fun _ _ _ => True) (.empty [js "acme"]) (sampleDb firstCalls) :=
    .call (.call .start 0 createWork trivial) 0 (createInWork "a" eventA) trivial
  obtain ⟨written, d, l, f, l', f', between, around, token, listed, token'⟩ := listsAndWrites_ends
  obtain ⟨t, before, last⟩ := Server.history_between Stmt.locks listsAndWrites (show none ≠ some () by decide) between around
  let client : Client := ⟨none, fun _ => none⟩
  have syncs : ∃ now actor options, client.Sends options ∧
      listsAndWrites none = program asciiHost now (.listCalendarObjects actor options) :=
    ⟨0, _, sampleOptions [("calendarId", js "work")], rfl, rfl⟩
  have interleaved : Relation.ReflTransGen (fun a b => ∃ who e, a.Step asciiHost (fun _ _ => true) who e b)
      (System.initial Unit (sampleDb firstCalls)) ⟨t, client⟩ :=
    history_interleaves syncs (fun _ => ⟨0, createInWork "b" eventB, trivial, rfl⟩) before (by simp)
  have answered : System.Step asciiHost (fun _ _ => true) ⟨t, client⟩ none (.commits (.objects l))
      ⟨⟨f, fun _ => none⟩, client.take l⟩ :=
    .client _ _ (fun p hp => by cases hp) last
  have listed' : (program asciiHost 0 (.listCalendarObjects (sampleActor "ada") (workSince 1))).run
      (Stmt.exec fun _ _ => true) f = .ok (.objects l', f') := Program.run_bind_ok listed
  obtain ⟨s₁, s₂, begins, sends, commits⟩ := Server.transaction_alone Stmt.locks (none : Option Unit) listed'
  have sends' : (client.take l).Sends (workSince 1) := by
    show (workSince 1).get "syncToken" = .string l.syncToken
    rw [token]
    rfl
  have first : System.Step asciiHost (fun _ _ => true) ⟨_, client.take l⟩ none _ ⟨s₁, client.take l⟩ :=
    .client _ s₁ (fun p hp => ⟨0, _, _, sends', (Event.begins.inj hp).symm⟩) begins
  have quiet : Relation.ReflTransGen (fun a b => ∃ who e, (∀ answer, e ≠ .commits answer) ∧
      a.Step asciiHost (fun _ _ => true) who e b) (⟨s₁, client.take l⟩ : System Unit) ⟨s₂, client.take l⟩ := by
    refine sends.lift (fun server => (⟨server, client.take l⟩ : System Unit)) ?_
    intro a b step
    exact ⟨_, _, (fun answer h => by cases h), .client .sends b (fun p hp => by cases hp) step⟩
  have last' : System.Step asciiHost (fun _ _ => true) ⟨s₂, client.take l⟩ none (.commits (.objects l'))
      ⟨⟨f', fun _ => none⟩, (client.take l).take l'⟩ :=
    .client _ _ (fun p hp => by cases hp) commits
  exact ⟨_, congrArg some token', listCalendarObjects_loses_no_update made (interleaved.tail ⟨_, _, answered⟩) first quiet last'⟩

end GuloGulo.CalDav.Postgres
