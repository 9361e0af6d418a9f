import GuloGulo.Js.Sha256
import GuloGulo.Web.AttachmentPolicy

/-!
# Where attachment URLs lead

An accepted URL leads to a private address only where an IPv6 address is
written in a way that the check by text does not know. IPv4 is never misread.
-/

namespace GuloGulo.Web
open Js Net

/-- The address that the host of a URL is, if it is one: IPv6 in brackets. -/
def literal? (hostname : JsString) : Option Address :=
  match octets? hostname with
  | some o => some (.v4 o.value)
  | none =>
    match hostname with
    | 91 :: rest => if endsWith rest [93] then (hextets? rest.dropLast).map fun hs => .v6 (value hs) else none
    | _ => none

/-- No private address by its number. -/
def Public (text : JsString) : Prop := ∀ a, address? (trim text) = some a → a.isListed = false

/-- An IPv6 address whose text does not show that it is private. -/
def ShownWrong (text : JsString) : Prop := ∃ n, address? (trim text) = some (.v6 n) ∧ Misread (lower (trim text)) n

def HostPublic (url : Url) : Prop := ∀ a, literal? url.hostname = some a → a.isListed = false

section
variable {s t : JsString} {a : Address} {n : Nat}

theorem toLowerCase_address (host : Host) (read : address? s = some a) : host.toLowerCase s = lower s :=
  host.toLowerCase_ascii s fun u mem => isAddressUnit_ascii (address_units read u mem)

theorem trim_address (read : address? s = some a) : trim s = s := by
  apply trim_clean
  intro u mem
  exact isAddressUnit_printable (address_units read u mem)

theorem address_v4 (read : address? s = some (.v4 n)) : ∃ o, octets? s = some o ∧ o.value = n := by
  unfold address? at read
  split at read
  · rename_i o found
    cases read
    exact ⟨o, found, rfl⟩
  · obtain ⟨_, _, same⟩ := Option.map_eq_some_iff.mp read
    cases same

theorem address_v6 (read : address? s = some (.v6 n)) : ∃ hs, zoned? s = some hs ∧ value hs = n := by
  unfold address? at read
  split at read
  · cases read
  · obtain ⟨hs, found, same⟩ := Option.map_eq_some_iff.mp read
    cases same
    exact ⟨hs, found, rfl⟩

theorem isReservedIpv6_address (host : Host) (read : address? s = some a) (lowered : lower s = s) :
    isReservedIpv6 host s = isReservedNormalized s := by
  have noBrackets : s.filter (fun u => u != 91 && u != 93) = s := by
    apply List.filter_eq_self.mpr
    intro u mem
    have unit := address_units read u mem
    by_contra bracket
    simp only [Bool.and_eq_true, bne_iff_ne, ne_eq, not_and_or, not_not] at bracket
    rcases bracket with rfl | rfl
    · cases unit
    · cases unit
  rw [isReservedIpv6, toLowerCase_address host read, lowered, noBrackets]

/-- What the check says of a text that is an address. -/
theorem isPrivate_v4 (host : Host) (read : address? (trim s) = some (.v4 n)) :
    isPrivateOrReservedAddress host (.string s) = isListed4 n := by
  obtain ⟨o, octets, rfl⟩ := address_v4 read
  have four : isIP (trim s) = 4 := by rw [isIP, read]
  simp only [isPrivateOrReservedAddress, toLowerCase_address host read, octets_lowered octets, four, if_true]
  exact isReservedIpv4_exact octets

theorem isPrivate_v6 (host : Host) (read : address? (trim s) = some (.v6 n)) :
    isPrivateOrReservedAddress host (.string s) = isReservedNormalized (lower (trim s)) := by
  have lowered : address? (lower (trim s)) = some (.v6 n) := by rw [address_lower, read]
  have six : isIP (lower (trim s)) = 6 := by rw [isIP, lowered]
  simp only [isPrivateOrReservedAddress, toLowerCase_address host read, six, Nat.reduceEqDiff, if_false, if_true]
  exact isReservedIpv6_address host lowered (lower_lower _)

theorem lowered_groups (read : address? (trim s) = some (.v6 n)) : ∃ hs, zoned? (lower (trim s)) = some hs ∧ value hs = n := by
  apply address_v6
  rw [address_lower, read]

/-- A text that is taken for public is so unless it is shown wrong. -/
theorem public_iff (host : Host) (accepted : isPrivateOrReservedAddress host (.string s) = false) :
    Public s ↔ ¬ ShownWrong s := by
  constructor
  · rintro isPublic ⟨n, read, misread⟩
    obtain ⟨hs, groups, rfl⟩ := lowered_groups read
    rw [isPrivate_v6 host read] at accepted
    have listed := (misread_iff groups (lower_lower _) accepted).mpr misread
    have unlisted : isListed6 (value hs) = false := isPublic _ read
    rw [listed] at unlisted
    cases unlisted
  · intro right a read
    cases a with
    | v4 n =>
      rw [isPrivate_v4 host read] at accepted
      exact accepted
    | v6 n =>
      obtain ⟨hs, groups, rfl⟩ := lowered_groups read
      rw [isPrivate_v6 host read] at accepted
      cases listed : isListed6 (value hs) with
      | false => exact listed
      | true => exact absurd ⟨_, read, (misread_iff groups (lower_lower _) accepted).mp listed⟩ right

theorem accepted_of_shownWrong (host : Host) (wrong : ShownWrong s) :
    isPrivateOrReservedAddress host (.string s) = false := by
  obtain ⟨n, read, misread⟩ := wrong
  obtain ⟨hs, groups, rfl⟩ := lowered_groups read
  rw [isPrivate_v6 host read]
  exact not_reserved_of_misread groups (lower_lower _) misread

/-! ## Spelling -/

/-- Every text of the address gets the same answer. -/
def SpellingIndependent (host : Host) (a : Address) : Prop :=
  ∀ s s', address? (trim s) = some a → address? (trim s') = some a →
    isPrivateOrReservedAddress host (.string s) = isPrivateOrReservedAddress host (.string s')

theorem isPrivate_of_not_ambiguous (host : Host) (clear : ¬ a.Ambiguous) (read : address? (trim s) = some a) :
    isPrivateOrReservedAddress host (.string s) = a.isListed := by
  cases a with
  | v4 n => exact isPrivate_v4 host read
  | v6 n =>
    obtain ⟨hs, groups, rfl⟩ := lowered_groups read
    rw [isPrivate_v6 host read]
    exact isReserved_of_not_ambiguous groups (lower_lower _) clear

theorem spellingIndependent_iff (host : Host) (a : Address) : SpellingIndependent host a ↔ ¬ a.Ambiguous := by
  constructor
  · intro same ambiguous
    cases a with
    | v4 n => exact ambiguous
    | v6 n =>
      obtain ⟨s, s', ⟨read, lowered, reserved⟩, read', lowered', accepted⟩ := two_verdicts ambiguous
      have trimmed := trim_address read
      have trimmed' := trim_address read'
      rw [← trimmed] at read
      rw [← trimmed'] at read'
      have both := same s s' read read'
      rw [isPrivate_v6 host read, isPrivate_v6 host read', trimmed, trimmed', lowered, lowered', reserved, accepted] at both
      cases both
  · intro clear s s' read read'
    rw [isPrivate_of_not_ambiguous host clear read, isPrivate_of_not_ambiguous host clear read']

/-! ## The host of a URL -/

theorem address_of_hextets {text : JsString} {hs : List Nat} (read : hextets? text = some hs) :
    address? text = some (.v6 (value hs)) := by
  have colon : 58 ∈ text := by
    rcases leads_of_hextets read with ⟨rest, _, rfl, _⟩ | ⟨_, _, _, _, rfl, _⟩
    · simp
    · simp
  apply address_of_zoned colon
  have noZone : 37 ∉ text := fun mem => by
    have unit := hextets_units read 37 mem
    cases unit
  rw [zoned?, cut_eq_none.mpr noZone]
  exact read

theorem stripBrackets_brackets (text : JsString) : stripBrackets (91 :: (text ++ [93])) = text := by
  have opens : startsWith (91 :: (text ++ [93])) [91] = true := by simp [startsWith]
  have closes : endsWith (text ++ [93]) [93] = true := by
    rw [endsWith, List.isSuffixOf_iff_suffix]
    exact List.suffix_append text [93]
  rw [stripBrackets, opens]
  simp [closes]

/-- The host that is checked has the address of the URL's host, in lower case. -/
theorem normalizeHost_literal (host : Host) {hostname : JsString} (read : literal? hostname = some a) :
    address? (normalizeHost host hostname) = some a ∧ lower (normalizeHost host hostname) = normalizeHost host hostname := by
  unfold literal? at read
  split at read
  · rename_i o octets
    cases read
    have found : address? hostname = some (.v4 o.value) := by rw [address?, octets]
    have noBracket : startsWith hostname [91] = false := by
      cases hostname with
      | nil => rfl
      | cons u rest =>
        by_contra bracket
        simp only [startsWith, List.isPrefixOf_cons_cons, List.isPrefixOf_nil_left, Bool.and_true, Bool.not_eq_false,
          beq_iff_eq] at bracket
        subst bracket
        have unit := octets_units octets List.mem_cons_self
        simp [isDigit] at unit
    have ends := octets_end octets
    rw [normalizeHost, toLowerCase_address host found, octets_lowered octets, stripBrackets]
    simp [noBracket, ends.not_endsWith, stripDot, found, isHexDigit, isDigit, octets_lowered octets]
  · split at read
    · rename_i rest
      split at read
      · rename_i bracket
        obtain ⟨hs, groups, rfl⟩ := Option.map_eq_some_iff.mp read
        obtain ⟨text, rfl⟩ := List.isSuffixOf_iff_suffix.mp bracket
        rw [List.dropLast_concat] at groups
        have units := hextets_units groups
        have ascii : ∀ u ∈ 91 :: (text ++ [93]), u < 128 := by
          simp only [List.mem_cons, List.mem_append, List.not_mem_nil, or_false]
          rintro u (rfl | mem | rfl)
          · decide
          · exact isAddressUnit_ascii (isAddressUnit_of_isGroupUnit (units u mem))
          · decide
        have found : address? (lower text) = some (.v6 (value hs)) := by
          rw [address_lower]
          exact address_of_hextets groups
        have ends : EndsWell (lower text) := by
          apply hextets_end
          rw [hextets_lower, groups]
        have lowered : (91 :: (text ++ [93])).map asciiLower = 91 :: (lower text ++ [93]) := by
          have brackets : asciiLower 91 = 91 ∧ asciiLower 93 = 93 := by decide
          simp [lower, brackets]
        rw [normalizeHost, host.toLowerCase_ascii _ ascii, lowered, stripBrackets_brackets, stripDot,
          ends.not_endsWith (by decide)]
        exact ⟨found, lower_lower text⟩
      · cases read
    · cases read

theorem address_normalizeHost (host : Host) {hostname : JsString} (read : literal? hostname = some a) :
    address? (normalizeHost host hostname) = some a := (normalizeHost_literal host read).1

/-- What the checks other than that of the address ask. -/
structure Admits (host : Host) (o : AttachmentUrlOptions) (url : Url) : Prop where
  protocol : url.protocol = js "https:" ∨ o.allowHttp = true ∧ url.protocol = js "http:"
  credentials : url.username = [] ∧ url.password = []
  hostname : isBlockedHostname (normalizeHost host url.hostname) = false
  allowed : o.allowHosts = [] ∨ normalizeHost host url.hostname ∈ o.allowHosts.map (normalizeHost host)
  port : (url.port.getD (defaultPort url) : Rat) ∈ o.allowedPorts.getD [(defaultPort url : Rat)]

/-- What the parser makes of the given value. -/
def Parses (parseUrl : JsString → Option Url) (rawUrl : JsValue) (url : Url) : Prop :=
  ∃ text, rawUrl = .string text ∧ text ≠ [] ∧ parseUrl text = some url

section
variable {host : Host} {parseUrl : JsString → Option Url} {rawUrl : JsValue} {o : AttachmentUrlOptions} {url : Url}
  {v : ValidatedUrl}

theorem Parses.unique {url' : Url} (h : Parses parseUrl rawUrl url) (h' : Parses parseUrl rawUrl url') : url = url' := by
  obtain ⟨text, rfl, _, read⟩ := h
  obtain ⟨_, same, _, read'⟩ := h'
  cases same
  exact Option.some.inj (read.symm.trans read')

theorem validateAttachmentUrl_eq_ok (accepted : validateAttachmentUrl host parseUrl rawUrl o = .ok v) :
    ∃ url, Parses parseUrl rawUrl url ∧ Admits host o url ∧ v.hostname = normalizeHost host url.hostname ∧
      (isIP v.hostname = 0 ∨ isPrivateOrReservedAddress host (.string v.hostname) = false) := by
  unfold validateAttachmentUrl at accepted
  split at accepted
  · rename_i text
    split at accepted
    · cases accepted
    · rename_i some'
      split at accepted
      · cases accepted
      · rename_i url parsed
        simp only [attachmentError, ite_eq_iff, reduceCtorEq, and_false, false_or, Except.ok.injEq] at accepted
        obtain ⟨protocol, credentials, hostname, isPublic, allowed, port, rfl⟩ := accepted
        refine ⟨url, ⟨text, rfl, by simpa using some', parsed⟩, ⟨?_, ?_, ?_, ?_, ?_⟩, rfl, ?_⟩
        · by_cases https : url.protocol = js "https:"
          · exact .inl https
          · exact .inr (not_not.mp fun refused => protocol ⟨https, refused⟩)
        · rw [not_or, not_not, not_not] at credentials
          exact credentials
        · exact Bool.eq_false_iff.mpr hostname
        · by_cases none : o.allowHosts = []
          · exact .inl none
          · exact .inr (not_not.mp fun refused => allowed ⟨by simpa using none, refused⟩)
        · exact not_not.mp port
        · by_cases ip : isIP (normalizeHost host url.hostname) = 0
          · exact .inl ip
          · exact .inr (Bool.eq_false_iff.mpr fun refused => isPublic ⟨ip, refused⟩)
  · cases accepted

theorem validateAttachmentUrl_of_admits (parsed : Parses parseUrl rawUrl url) (admits : Admits host o url)
    (checked : isIP (normalizeHost host url.hostname) = 0 ∨
      isPrivateOrReservedAddress host (.string (normalizeHost host url.hostname)) = false) :
    ∃ v, validateAttachmentUrl host parseUrl rawUrl o = .ok v ∧ v.hostname = normalizeHost host url.hostname := by
  obtain ⟨text, rfl, some', parsed⟩ := parsed
  have text' : text.isEmpty = false := by simpa using some'
  have protocol : ¬ (url.protocol ≠ js "https:" ∧ ¬ (o.allowHttp = true ∧ url.protocol = js "http:")) := by
    rintro ⟨https, http⟩
    exact admits.protocol.elim https http
  have credentials : ¬ (url.username ≠ [] ∨ url.password ≠ []) := by
    rw [not_or, not_not, not_not]
    exact admits.credentials
  have allowed : ¬ (o.allowHosts.map (normalizeHost host) ≠ [] ∧
      normalizeHost host url.hostname ∉ o.allowHosts.map (normalizeHost host)) := by
    rintro ⟨some', refused⟩
    rcases admits.allowed with none | mem
    · exact some' (by rw [none]; rfl)
    · exact refused mem
  have ported := not_not.mpr admits.port
  refine ⟨⟨url.href, url.protocol, normalizeHost host url.hostname, url.port.getD (defaultPort url), "error", "omit"⟩, ?_, rfl⟩
  have unguarded : ¬ (isIP (normalizeHost host url.hostname) ≠ 0 ∧
      isPrivateOrReservedAddress host (.string (normalizeHost host url.hostname)) = true) := by
    rintro ⟨ip, refused⟩
    rw [checked.resolve_left ip] at refused
    cases refused
  simp only [validateAttachmentUrl, text', parsed, Bool.false_eq_true, if_false]
  rw [if_neg protocol, if_neg credentials, if_neg (Bool.eq_false_iff.mp admits.hostname), if_neg unguarded,
    if_neg allowed, if_neg ported]

/-- The host's text does not show that it is private. -/
def HostShownWrong (host : Host) (url : Url) : Prop :=
  ∃ n, literal? url.hostname = some (.v6 n) ∧ Misread (normalizeHost host url.hostname) n

theorem hostShownWrong_iff (read : literal? url.hostname = some a) :
    HostShownWrong host url ↔ ShownWrong (normalizeHost host url.hostname) := by
  have found := address_normalizeHost host read
  have trimmed := trim_address found
  unfold HostShownWrong ShownWrong
  rw [trimmed, found, read, (normalizeHost_literal host read).2]

theorem isIP_of_literal (host : Host) (read : literal? url.hostname = some a) : isIP (normalizeHost host url.hostname) ≠ 0 := by
  rw [isIP, address_normalizeHost host read]
  cases a with
  | v4 n => simp
  | v6 n => simp

theorem hostPublic_of_checked (checked : isIP (normalizeHost host url.hostname) = 0 ∨
    isPrivateOrReservedAddress host (.string (normalizeHost host url.hostname)) = false)
    (right : ¬ HostShownWrong host url) : HostPublic url := by
  intro a read
  have accepted := checked.resolve_left (isIP_of_literal host read)
  have isPublic := (public_iff host accepted).mpr fun shown => right ((hostShownWrong_iff read).mpr shown)
  apply isPublic
  rw [trim_address (address_normalizeHost host read), address_normalizeHost host read]

theorem resolve_eq_ok {lookup : JsString → Option (List LookupAnswer)} {r : ResolvedUrl} :
    resolveAndValidateAttachmentUrl host parseUrl rawUrl o lookup = .ok r ↔
      validateAttachmentUrl host parseUrl rawUrl o = .ok r.validated ∧
        (isIP r.validated.hostname ≠ 0 ∧ r.addresses = [r.validated.hostname] ∨
          isIP r.validated.hostname = 0 ∧ ∃ answers, lookup r.validated.hostname = some answers ∧
            r.addresses = addressesOf answers ∧ r.addresses ≠ [] ∧
              ∀ text ∈ r.addresses, isPrivateOrReservedAddress host (.string text) = false) := by
  obtain ⟨validated, addresses⟩ := r
  unfold resolveAndValidateAttachmentUrl
  cases accepted : validateAttachmentUrl host parseUrl rawUrl o with
  | error e => simp [bind, Except.bind]
  | ok v =>
    simp only [bind, Except.bind]
    by_cases ip : isIP v.hostname = 0
    · rw [if_neg (not_not.mpr ip)]
      cases answered : lookup v.hostname with
      | none =>
        constructor
        · intro h
          cases h
        · rintro ⟨same, ⟨other, _⟩ | ⟨_, answers, answered', _⟩⟩
          · cases same
            exact absurd ip other
          · cases same
            cases answered.symm.trans answered'
      | some answers =>
        constructor
        · intro h
          simp only [attachmentError] at h
          split at h
          · cases h
          · rename_i fine
            cases h
            rw [not_or] at fine
            refine ⟨rfl, .inr ⟨ip, answers, answered, rfl, fine.1, ?_⟩⟩
            intro text mem
            by_contra refused
            exact fine.2 (List.any_eq_true.mpr ⟨text, mem, Bool.not_eq_false _ ▸ refused⟩)
        · rintro ⟨same, ⟨other, _⟩ | ⟨_, _, answered', rfl, some', fine⟩⟩
          · cases same
            exact absurd ip other
          · cases same
            cases answered.symm.trans answered'
            have nothing : ¬ (addressesOf answers = [] ∨
                ((addressesOf answers).any fun address => isPrivateOrReservedAddress host (.string address)) = true) := by
              rw [not_or]
              refine ⟨some', fun refused => ?_⟩
              obtain ⟨text, mem, refused⟩ := List.any_eq_true.mp refused
              rw [fine text mem] at refused
              cases refused
            exact if_neg nothing
    · rw [if_pos ip]
      constructor
      · intro h
        cases h
        exact ⟨rfl, .inl ⟨ip, rfl⟩⟩
      · rintro ⟨same, ⟨_, rfl⟩ | ⟨other, _⟩⟩
        · cases same
          rfl
        · cases same
          exact absurd other ip

/-- What a URL leads to: its own host, or what the resolver answers. -/
def reached (host : Host) (lookup : JsString → Option (List LookupAnswer)) (url : Url) : List JsString :=
  let hostname := normalizeHost host url.hostname
  if isIP hostname ≠ 0 then [hostname] else addressesOf ((lookup hostname).getD [])

section
variable {lookup : JsString → Option (List LookupAnswer)}

theorem resolve_accepted {r : ResolvedUrl} (parsed : Parses parseUrl rawUrl url)
    (accepted : resolveAndValidateAttachmentUrl host parseUrl rawUrl o lookup = .ok r) :
    Admits host o url ∧ r.addresses = reached host lookup url ∧
      ∀ text ∈ reached host lookup url, isPrivateOrReservedAddress host (.string text) = false := by
  obtain ⟨validated, ends⟩ := resolve_eq_ok.mp accepted
  obtain ⟨url', parsed', admits, hostname, checked⟩ := validateAttachmentUrl_eq_ok validated
  obtain rfl := parsed.unique parsed'
  have reaches : r.addresses = reached host lookup url := by
    unfold reached
    rw [← hostname]
    rcases ends with ⟨ip, same⟩ | ⟨ip, answers, answered, same, _⟩
    · rw [same]
      exact (if_pos ip).symm
    · simp only [answered, same, ip]
      rfl
  refine ⟨admits, reaches, ?_⟩
  rw [← reaches]
  rcases ends with ⟨ip, same⟩ | ⟨_, _, _, _, _, fine⟩
  · rw [same]
    simpa using checked.resolve_left ip
  · exact fine

theorem resolve_of_admits (parsed : Parses parseUrl rawUrl url) (admits : Admits host o url)
    (some' : reached host lookup url ≠ [])
    (accepted : ∀ text ∈ reached host lookup url, isPrivateOrReservedAddress host (.string text) = false) :
    ∃ r, resolveAndValidateAttachmentUrl host parseUrl rawUrl o lookup = .ok r ∧
      r.addresses = reached host lookup url := by
  have checked : isIP (normalizeHost host url.hostname) = 0 ∨
      isPrivateOrReservedAddress host (.string (normalizeHost host url.hostname)) = false := by
    by_cases ip : isIP (normalizeHost host url.hostname) = 0
    · exact .inl ip
    · right
      apply accepted
      rw [reached, if_pos ip]
      exact List.mem_singleton_self _
  obtain ⟨v, validated, hostname⟩ := validateAttachmentUrl_of_admits parsed admits checked
  refine ⟨⟨v, reached host lookup url⟩, resolve_eq_ok.mpr ⟨validated, ?_⟩, rfl⟩
  rw [hostname]
  by_cases ip : isIP (normalizeHost host url.hostname) = 0
  · right
    have reaches : reached host lookup url = addressesOf ((lookup (normalizeHost host url.hostname)).getD []) := by
      rw [reached, if_neg (not_not.mpr ip)]
    refine ⟨ip, ?_⟩
    cases answered : lookup (normalizeHost host url.hostname) with
    | none =>
      rw [reaches, answered] at some'
      exact absurd rfl some'
    | some answers =>
      rw [answered] at reaches
      exact ⟨answers, rfl, reaches, some', accepted⟩
  · left
    refine ⟨ip, ?_⟩
    rw [reached, if_pos ip]

/-- Nothing that is accepted leads to a private address, if and only if no text
of an IPv6 address shows it wrong; for which addresses this depends on the
spelling. -/
theorem leads_public_iff (host : Host) (parseUrl : JsString → Option Url) (rawUrl : JsValue) (o : AttachmentUrlOptions)
    (lookup : JsString → Option (List LookupAnswer)) :
    ((∀ url v, Parses parseUrl rawUrl url → validateAttachmentUrl host parseUrl rawUrl o = .ok v → HostPublic url) ↔
      ∀ url, Parses parseUrl rawUrl url → Admits host o url → ¬ HostShownWrong host url) ∧
    ((∀ url r, Parses parseUrl rawUrl url → resolveAndValidateAttachmentUrl host parseUrl rawUrl o lookup = .ok r →
        HostPublic url ∧ ∀ text ∈ r.addresses, Public text) ↔
      ∀ url, Parses parseUrl rawUrl url → Admits host o url →
        (∀ text ∈ reached host lookup url, isPrivateOrReservedAddress host (.string text) = false) →
          ∀ text ∈ reached host lookup url, ¬ ShownWrong text) ∧
    ∀ a, SpellingIndependent host a ↔ ¬ a.Ambiguous := by
  refine ⟨⟨?_, ?_⟩, ⟨?_, ?_⟩, spellingIndependent_iff host⟩
  · intro safe url parsed admits wrong
    obtain ⟨n, read, misread⟩ := wrong
    have shown : ShownWrong (normalizeHost host url.hostname) := (hostShownWrong_iff read).mp ⟨n, read, misread⟩
    have accepted := accepted_of_shownWrong host shown
    obtain ⟨v, validated, _⟩ := validateAttachmentUrl_of_admits parsed admits (.inr accepted)
    have isPublic : Public (normalizeHost host url.hostname) := by
      intro a read'
      rw [trim_address (address_normalizeHost host read), address_normalizeHost host read] at read'
      cases read'
      exact safe url v parsed validated _ read
    exact (public_iff host accepted).mp isPublic shown
  · intro right url v parsed validated
    obtain ⟨url', parsed', admits, hostname, checked⟩ := validateAttachmentUrl_eq_ok validated
    obtain rfl := parsed.unique parsed'
    exact hostPublic_of_checked (hostname ▸ checked) (right url parsed admits)
  · intro safe url parsed admits accepted text mem shown
    have some' : reached host lookup url ≠ [] := List.ne_nil_of_mem mem
    obtain ⟨r, resolved, reaches⟩ := resolve_of_admits parsed admits some' accepted
    have isPublic := (safe url r parsed resolved).2 text (reaches ▸ mem)
    exact (public_iff host (accepted text mem)).mp isPublic shown
  · intro right url r parsed resolved
    obtain ⟨admits, reaches, accepted⟩ := resolve_accepted parsed resolved
    have clear := right url parsed admits accepted
    constructor
    · intro a read
      have mem : normalizeHost host url.hostname ∈ reached host lookup url := by
        rw [reached, if_pos (isIP_of_literal host read)]
        exact List.mem_singleton_self _
      have isPublic := (public_iff host (accepted _ mem)).mpr (clear _ mem)
      apply isPublic
      rw [trim_address (address_normalizeHost host read), address_normalizeHost host read]
    · intro text mem
      rw [reaches] at mem
      exact (public_iff host (accepted text mem)).mpr (clear text mem)

end

/-! ## Loopback behind a mapped address -/

/-- What a parser makes of `https://[::ffff:127.0.0.1]/`, and of nothing else. -/
def parseMapped (text : JsString) : Option Url :=
  if text = js "https://[::ffff:127.0.0.1]/" then
    some ⟨js "https://[::ffff:7f00:1]/", js "https:", [], [], js "[::ffff:7f00:1]", none⟩
  else none

theorem mapped_loopback_accepted : ¬ ∀ url v,
    Parses parseMapped (.string (js "https://[::ffff:127.0.0.1]/")) url →
      validateAttachmentUrl asciiHost parseMapped (.string (js "https://[::ffff:127.0.0.1]/")) {} = .ok v →
        HostPublic url := by
  intro safe
  have parsed : Parses parseMapped (.string (js "https://[::ffff:127.0.0.1]/"))
      ⟨js "https://[::ffff:7f00:1]/", js "https:", [], [], js "[::ffff:7f00:1]", none⟩ :=
    ⟨_, rfl, by decide, rfl⟩
  have accepted : validateAttachmentUrl asciiHost parseMapped (.string (js "https://[::ffff:127.0.0.1]/")) {} =
      .ok { url := js "https://[::ffff:7f00:1]/", protocol := js "https:", hostname := js "::ffff:7f00:1", port := 443 } := by
    decide
  have listed : (Address.v6 0xffff7f000001).isListed = true := by decide
  rw [safe _ _ parsed accepted (.v6 0xffff7f000001) (by decide)] at listed
  cases listed

end

end

end GuloGulo.Web
