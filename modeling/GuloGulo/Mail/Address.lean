import GuloGulo.Js.Lines
import GuloGulo.Mail.Runtime

/-!
# Mail addresses

`normalizeAddress` of `core/mail/mail-policy.ts`. What it accepts is a local
part and a domain around the only `@`, so the text after the last `@` of an
accepted address is its domain, and whether the address ends in `@domain` says
whether it is inside the domain.
-/

namespace GuloGulo.Mail
open Js

def policyError (message code : String) : Thrown CodedError :=
  .contract ⟨s!"Mail policy error: {message}", code⟩

def requiredString (value : JsValue) (name : String) : Except (Thrown CodedError) JsString :=
  match value with
  | .string (u :: s) => .ok (u :: s)
  | _ => .error (policyError s!"{name} is required" "INVALID_INPUT")

theorem requiredString_eq_ok {value : JsValue} {name : String} {s : JsString} :
    requiredString value name = .ok s ↔ value = .string s ∧ s ≠ [] := by
  unfold requiredString
  split
  · rename_i u rest
    constructor
    · intro h; cases h; simp
    · rintro ⟨h, _⟩; cases h; rfl
  · rename_i other
    constructor
    · intro h; cases h
    · rintro ⟨rfl, ne⟩
      cases s with
      | nil => exact absurd rfl ne
      | cons u rest => exact absurd rfl (other u rest)

/-- `lastIndexOf` of one code unit, as the text before it and the text after
it. -/
def cutLast (s : JsString) (u : UInt16) : Option (JsString × JsString) :=
  match s with
  | [] => none
  | v :: rest =>
    match cutLast rest u with
    | some p => some (v :: p.1, p.2)
    | none => if v = u then some ([], rest) else none

theorem cutLast_of_not_mem {s : JsString} {u : UInt16} (h : u ∉ s) : cutLast s u = none := by
  induction s with
  | nil => rfl
  | cons v s ih =>
    rw [List.mem_cons, not_or] at h
    simp [cutLast, ih h.2, Ne.symm h.1]

theorem cutLast_append {a b : JsString} {u : UInt16} (h : u ∉ b) :
    cutLast (a ++ u :: b) u = some (a, b) := by
  induction a with
  | nil => simp [cutLast, cutLast_of_not_mem h]
  | cons v a ih => simp [cutLast, ih]

/-- The text after the last `@`. -/
def domainPart (address : JsString) : JsString := (cutLast address 64).elim address Prod.snd

/-- An alphanumeric or one of ``.!#$%&'*+/=?^_`{|}~-``. -/
def isLocalUnit (u : UInt16) : Bool :=
  isAlnum u || [46, 33, 35, 36, 37, 38, 39, 42, 43, 47, 61, 63, 94, 95, 96, 123, 124, 125, 126, 45].contains u

def localPartPattern (s : JsString) : Bool := decide (1 ≤ s.length ∧ s.length ≤ 64) && s.all isLocalUnit

def domainLabel (s : JsString) : Bool :=
  decide (s.length ≤ 63) && s.head?.any isAlnum && s.getLast?.any isAlnum &&
    s.all fun u => isAlnum u || u == 45

def domainPattern (s : JsString) : Bool :=
  decide (1 ≤ s.length ∧ s.length ≤ 253) && (split s 46).all domainLabel

theorem isLocalUnit_bound {u : UInt16} (h : isLocalUnit u) :
    u < 128 ∧ u ≠ 64 ∧ isWhiteSpace u = false := by
  simp only [isLocalUnit, isAlnum, isAlpha, isUpper, isLower, isDigit, Bool.or_eq_true, Bool.and_eq_true,
    decide_eq_true_eq, List.contains_eq_mem, List.mem_cons, List.not_mem_nil, or_false,
    UInt16.le_iff_toNat_le, ← UInt16.toNat_inj] at h
  rw [UInt16.lt_iff_toNat_lt, ne_eq, ← UInt16.toNat_inj, ← Bool.not_eq_true]
  simp only [isWhiteSpace, Bool.or_eq_true, Bool.and_eq_true, decide_eq_true_eq, beq_iff_eq,
    UInt16.le_iff_toNat_le, ← UInt16.toNat_inj]
  simp only [UInt16.reduceToNat] at h ⊢
  omega

theorem localPartPattern_units {s : JsString} (h : localPartPattern s) :
    ∀ u ∈ s, u < 128 ∧ u ≠ 64 ∧ isWhiteSpace u = false := by
  rw [localPartPattern, Bool.and_eq_true, List.all_eq_true] at h
  exact fun u hu => isLocalUnit_bound (h.2 u hu)

theorem domainPattern_units {s : JsString} (h : domainPattern s) :
    ∀ u ∈ s, u < 128 ∧ u ≠ 64 ∧ isWhiteSpace u = false := by
  intro u hu
  apply isLocalUnit_bound
  by_cases dot : u = 46
  · rw [dot]; decide
  · rw [domainPattern, Bool.and_eq_true, List.all_eq_true] at h
    obtain ⟨label, hl, hu⟩ := mem_split_of_mem hu dot
    have units := h.2 label hl
    simp only [domainLabel, Bool.and_eq_true, List.all_eq_true, Bool.or_eq_true, beq_iff_eq] at units
    rcases units.2 u hu with alnum | rfl
    · rw [isLocalUnit, alnum, Bool.true_or]
    · decide

theorem not_mem_of_domainPattern {s : JsString} (h : domainPattern s) : 64 ∉ s :=
  fun hu => (domainPattern_units h 64 hu).2.1 rfl

/-- Lower-casing an ASCII unit gives no upper-case letter and keeps the local
parts. -/
theorem asciiLower_spec (u : UInt16) :
    isUpper (asciiLower u) = false ∧ (isLocalUnit u → isLocalUnit (asciiLower u)) := by
  cases upper : isUpper u with
  | false =>
    have same : asciiLower u = u := by simp [asciiLower, upper]
    rw [same]
    exact ⟨upper, id⟩
  | true =>
    have next : asciiLower u = u + 32 := by simp [asciiLower, upper]
    simp only [isUpper, Bool.and_eq_true, decide_eq_true_eq, UInt16.le_iff_toNat_le] at upper
    have value : (u + 32).toNat = u.toNat + 32 := by
      rw [UInt16.toNat_add]
      simp only [UInt16.reduceToNat] at upper ⊢
      omega
    have lower : isLower (u + 32) = true := by
      simp only [isLower, Bool.and_eq_true, decide_eq_true_eq, UInt16.le_iff_toNat_le, value]
      simp only [UInt16.reduceToNat] at upper ⊢
      omega
    constructor
    · rw [next, ← Bool.not_eq_true]
      simp only [isUpper, isLower, Bool.and_eq_true, decide_eq_true_eq, UInt16.le_iff_toNat_le, value] at lower ⊢
      simp only [UInt16.reduceToNat] at lower upper ⊢
      omega
    · intro _
      rw [next, isLocalUnit, isAlnum, isAlpha, lower]
      simp

theorem trim_sublist (s : JsString) : (trim s).Sublist s := by
  have inner : (trimStart (trimStart s).reverse).Sublist (trimStart s).reverse := List.dropWhile_sublist _
  have outer := List.reverse_sublist.mpr inner
  rw [List.reverse_reverse] at outer
  exact outer.trans (List.dropWhile_sublist _)

def normalizeAddress (host : Host) (address : JsValue) (name : String) :
    Except (Thrown CodedError) JsString := do
  let value ← requiredString address name
  let invalid := policyError s!"{name} is not a valid mailbox address" "INVALID_ADDRESS"
  match cutLast (trim value) 64 with
  | none => throw invalid
  | some (localPart, domain) => do
    throwIf (localPart.isEmpty || domain.isEmpty) invalid
    throwIf (!localPartPattern localPart || !domainPattern (host.toLowerCase domain)) invalid
    return host.toLowerCase localPart ++ 64 :: host.toLowerCase domain

def normalizeAddressForTenant (host : Host) (address : JsValue) (domain : JsString) (name : String) :
    Except (Thrown CodedError) JsString := do
  let normalized ← normalizeAddress host address name
  throwIf (domainPart normalized != domain)
    (policyError s!"{name} is outside the tenant domain" "CROSS_TENANT_ADDRESS")
  return normalized

/-- The form of a normalised address. -/
def IsAddress (address : JsString) : Prop :=
  ∃ localPart domain, address = localPart ++ 64 :: domain ∧ localPartPattern localPart ∧
    domainPattern domain

theorem normalizeAddress_eq_ok {host : Host} {value : JsValue} {name : String} {address : JsString}
    (h : normalizeAddress host value name = .ok address) :
    ∃ localPart domain, localPartPattern localPart ∧ domainPattern (host.toLowerCase domain) ∧
      address = localPart.map asciiLower ++ 64 :: host.toLowerCase domain := by
  obtain ⟨text, _, h⟩ := bind_eq_ok.mp h
  dsimp only at h
  split at h
  · cases h
  · rename_i localPart domain _
    obtain ⟨_, _, h⟩ := bind_eq_ok.mp h
    obtain ⟨_, patterns, h⟩ := bind_eq_ok.mp h
    rw [throwIf_eq_ok, Bool.or_eq_false_iff, Bool.not_eq_false', Bool.not_eq_false'] at patterns
    cases h
    rw [host.toLowerCase_ascii _ fun u hu => (localPartPattern_units patterns.1 u hu).1]
    exact ⟨localPart, domain, patterns.1, patterns.2, rfl⟩

theorem isAddress_of_normalizeAddress {host : Host} {value : JsValue} {name : String} {address : JsString}
    (h : normalizeAddress host value name = .ok address) : IsAddress address := by
  obtain ⟨localPart, domain, pattern, inside, rfl⟩ := normalizeAddress_eq_ok h
  refine ⟨_, _, rfl, ?_, inside⟩
  rw [localPartPattern, Bool.and_eq_true, List.all_eq_true] at pattern ⊢
  refine ⟨by rw [List.length_map]; exact pattern.1, fun u hu => ?_⟩
  obtain ⟨v, hv, rfl⟩ := List.mem_map.mp hu
  exact (asciiLower_spec v).2 (pattern.2 v hv)

theorem domainPart_append {localPart domain : JsString} (h : domainPattern domain) :
    domainPart (localPart ++ 64 :: domain) = domain := by
  rw [domainPart, cutLast_append (not_mem_of_domainPattern h)]
  rfl

/-- Ending in `@domain` is being inside the domain. -/
theorem endsWith_domain {address domain : JsString} (h : IsAddress address) (noAt : 64 ∉ domain) :
    endsWith address (64 :: domain) = true ↔ domainPart address = domain := by
  obtain ⟨localPart, own, rfl, _, pattern⟩ := h
  rw [endsWith, List.isSuffixOf_iff_suffix, domainPart_append pattern]
  constructor
  · rintro ⟨before, same⟩
    have last := cutLast_append (a := localPart) (not_mem_of_domainPattern pattern)
    rw [← same, cutLast_append noAt] at last
    cases last
    rfl
  · rintro rfl
    exact ⟨localPart, rfl⟩

/-- A runtime whose lower-casing leaves no upper-case letter. -/
structure MailHost extends Host where
  toLowerCase_lower : ∀ s, ∀ u ∈ toLowerCase s, isUpper u = false

/-- Normalising a normalised address again changes nothing. -/
theorem normalizeAddress_again {host : MailHost} {value : JsValue} {name : String} {address : JsString}
    (h : normalizeAddress host.toHost value name = .ok address) (name' : String) :
    normalizeAddress host.toHost (.string address) name' = .ok address := by
  obtain ⟨own, raw, _, _, same⟩ := normalizeAddress_eq_ok h
  obtain ⟨localPart, domain, rfl, pattern, inside⟩ := isAddress_of_normalizeAddress h
  have lower : ∀ u ∈ localPart ++ 64 :: domain, isUpper u = false := by
    intro u hu
    rw [same, List.mem_append, List.mem_cons] at hu
    rcases hu with hu | rfl | hu
    · obtain ⟨v, _, rfl⟩ := List.mem_map.mp hu
      exact (asciiLower_spec v).1
    · decide
    · exact host.toLowerCase_lower raw u hu
  have kept {s : JsString} (ascii : ∀ u ∈ s, u < 128) (sub : ∀ u ∈ s, u ∈ localPart ++ 64 :: domain) :
      host.toLowerCase s = s := by
    rw [host.toLowerCase_ascii s ascii]
    exact map_asciiLower_of_not_upper fun u hu => lower u (sub u hu)
  have keptLocal : host.toLowerCase localPart = localPart :=
    kept (fun u hu => (localPartPattern_units pattern u hu).1) (fun u hu => by simp [hu])
  have keptDomain : host.toLowerCase domain = domain :=
    kept (fun u hu => (domainPattern_units inside u hu).1) (fun u hu => by simp [hu])
  have trimmed : trim (localPart ++ 64 :: domain) = localPart ++ 64 :: domain := by
    apply trim_clean
    intro u hu
    rw [List.mem_append, List.mem_cons] at hu
    rcases hu with hu | rfl | hu
    · exact (localPartPattern_units pattern u hu).2.2
    · decide
    · exact (domainPattern_units inside u hu).2.2
  have required : requiredString (.string (localPart ++ 64 :: domain)) name' =
      .ok (localPart ++ 64 :: domain) := requiredString_eq_ok.mpr ⟨rfl, by simp⟩
  have someLocal : localPart.isEmpty = false := by
    cases localPart with
    | nil => cases pattern
    | cons => rfl
  have someDomain : domain.isEmpty = false := by
    cases domain with
    | nil => cases inside
    | cons => rfl
  simp only [normalizeAddress, required, ok_bind, trimmed, cutLast_append (not_mem_of_domainPattern inside),
    someLocal, someDomain, keptLocal, keptDomain, pattern, inside, Bool.or_self, Bool.not_true, throwIf_false]
  rfl

theorem normalizeAddressForTenant_eq_ok {host : Host} {value : JsValue} {domain address : JsString}
    {name : String} : normalizeAddressForTenant host value domain name = .ok address ↔
      normalizeAddress host value name = .ok address ∧ domainPart address = domain := by
  rw [normalizeAddressForTenant, bind_eq_ok]
  constructor
  · rintro ⟨a, ha, h⟩
    obtain ⟨_, inside, h⟩ := bind_eq_ok.mp h
    cases h
    exact ⟨ha, bne_eq_false_iff_eq.mp (throwIf_eq_ok.mp inside)⟩
  · rintro ⟨ha, rfl⟩
    refine ⟨address, ha, ?_⟩
    rw [bne_self_eq_false]
    rfl

/-- The name only enters the errors. -/
theorem normalizeAddress_name {host : Host} {value : JsValue} {name : String} {address : JsString}
    (h : normalizeAddress host value name = .ok address) (name' : String) :
    normalizeAddress host value name' = .ok address := by
  obtain ⟨text, required, h⟩ := bind_eq_ok.mp h
  refine bind_eq_ok.mpr ⟨text, requiredString_eq_ok.mpr (requiredString_eq_ok.mp required), ?_⟩
  dsimp only at h ⊢
  split at h
  · cases h
  · obtain ⟨_, parts, h⟩ := bind_eq_ok.mp h
    obtain ⟨_, patterns, h⟩ := bind_eq_ok.mp h
    rw [throwIf_eq_ok] at parts patterns
    rw [parts, patterns]
    exact h

end GuloGulo.Mail
