import GuloGulo.Data.Machine
import GuloGulo.Identity.Login
import GuloGulo.Js.Sha256

/-!
# Whose identity a login gets

A run is any sequence of logins of one authenticator, each with an outage of
its own. The directory is what it is; what it says of a mailbox is compared
with the identity that the login of the mailbox gets.
-/

namespace GuloGulo.Identity
open Js Data Integrations.Actor

/-! ## Calls -/

/-- Calls are only added. -/
def Grows {α : Type} (m : Io α) : Prop := ∀ calls, calls <:+ (m calls).2

section
variable {α β : Type}

theorem grows_pure (a : α) : Grows (pure a) := fun calls => List.suffix_refl calls

theorem grows_lift (x : Except Unit α) : Grows (Eff.lift x) := fun calls => List.suffix_refl calls

theorem grows_perform (outage : Outage) (call : Call) (accepted : Bool) : Grows (perform outage call accepted) := by
  intro calls
  unfold perform
  split
  · exact List.suffix_cons _ _
  · exact List.suffix_cons _ _

theorem grows_bind {m : Io β} {f : β → Io α} (hm : Grows m) (hf : ∀ b, Grows (f b)) : Grows (m >>= f) := by
  intro calls
  show calls <:+ (Eff.bind m f calls).2
  have before := hm calls
  unfold Eff.bind
  split
  · rename_i b calls' ended
    rw [ended] at before
    exact before.trans (hf b calls')
  · rename_i ended
    rw [ended] at before
    exact before

theorem grows_settled {m : Io α} (hm : Grows m) : Grows (settled m) := hm

theorem perform_eq_ok {outage : Outage} {call : Call} {accepted : Bool} {calls : Calls} {u : Unit}
    (h : (perform outage call accepted calls).1 = .ok u) :
    accepted = true ∧ (call, true) ∈ (perform outage call accepted calls).2 := by
  unfold perform at h ⊢
  split at h
  · rename_i works
    rw [if_pos works]
    exact ⟨(Bool.and_eq_true_iff.mp works).1, List.mem_cons_self⟩
  · cases h

theorem bind_calls {m : Io β} {f : β → Io α} {calls : Calls} {b : β} (h : (m calls).1 = .ok b) :
    ((m >>= f) calls).2 = (f b (m calls).2).2 := by
  show (Eff.bind m f calls).2 = _
  unfold Eff.bind
  split
  · rename_i ended
    rw [ended] at h ⊢
    cases h
    rfl
  · rename_i ended
    rw [ended] at h
    cases h

/-- What a computation returns, whatever fails. -/
def Returns (m : Io α) (P : α → Prop) : Prop := ∀ calls a, (m calls).1 = .ok a → P a

theorem returns_bind {m : Io β} {f : β → Io α} {P : α → Prop} (hf : ∀ b, Returns (f b) P) : Returns (m >>= f) P := by
  intro calls a h
  obtain ⟨b, _, h⟩ := Eff.bind_fst_eq_ok h
  exact hf b _ a h

end

/-! ## What the directory says -/

section
variable (host : Host)

def Ldap.account (ldap : Ldap) (parsed : ParsedLoginEmail) : Option LdapEntry :=
  match ldap.search ldap.userBaseDn (lookupFilter parsed.username parsed.domain) with
  | [entry] => some entry
  | _ => none

def Cpanel.account (cpanel : Cpanel) (parsed : ParsedLoginEmail) : Option JsValue :=
  match Cpanel.findRow host (Cpanel.mailAddress host parsed.username parsed.domain) cpanel.rows with
  | .ok entry => entry
  | .error _ => none

/-- A unit that neither opens nor closes a filter, matches anything or ends the text. -/
def isPlainUnit (u : UInt16) : Bool := u != 40 && u != 41 && u != 42 && u != 0

theorem escapeUnit_plain (u : UInt16) : (escapeUnit u).all isPlainUnit = true := by
  unfold escapeUnit
  split
  · decide
  · split
    · decide
    · split
      · decide
      · split
        · decide
        · split
          · decide
          · rename_i star opens closes nul
            simp only [List.all_cons, List.all_nil, isPlainUnit, Bool.and_true, Bool.and_eq_true, bne_iff_ne]
            exact ⟨⟨⟨opens, closes⟩, star⟩, nul⟩

/-- A name stands in a filter for nothing but itself. -/
theorem escapeFilter_plain (value : JsString) : (escapeFilter value).all isPlainUnit = true := by
  rw [escapeFilter, List.all_flatMap, List.all_eq_true]
  intro u _
  exact escapeUnit_plain u

/-- The unit that an escaped name begins with, and the rest. -/
def unescapeFirst : JsString → Option (UInt16 × JsString)
  | 92 :: 53 :: 99 :: rest => some (92, rest)
  | 92 :: 50 :: 97 :: rest => some (42, rest)
  | 92 :: 50 :: 56 :: rest => some (40, rest)
  | 92 :: 50 :: 57 :: rest => some (41, rest)
  | 92 :: 48 :: 48 :: rest => some (0, rest)
  | u :: rest => some (u, rest)
  | [] => none

theorem unescapeFirst_escapeUnit (u : UInt16) (rest : JsString) : unescapeFirst (escapeUnit u ++ rest) = some (u, rest) := by
  unfold escapeUnit
  split
  · subst u
    rfl
  · rename_i backslash
    split
    · subst u
      rfl
    · split
      · subst u
        rfl
      · split
        · subst u
          rfl
        · split
          · subst u
            rfl
          · show unescapeFirst (u :: rest) = some (u, rest)
            unfold unescapeFirst
            split <;> simp_all

theorem escapeUnit_injective {u v : UInt16} {a b : JsString} (h : escapeUnit u ++ a = escapeUnit v ++ b) :
    u = v ∧ a = b := by
  have first := congrArg unescapeFirst h
  rw [unescapeFirst_escapeUnit, unescapeFirst_escapeUnit] at first
  exact Prod.mk.inj (Option.some.inj first)

theorem escapeUnit_ne_nil (u : UInt16) : escapeUnit u ≠ [] := by
  intro none
  have first := unescapeFirst_escapeUnit u []
  rw [none] at first
  cases first

theorem escapeFilter_injective {a b : JsString} (h : escapeFilter a = escapeFilter b) : a = b := by
  induction a generalizing b with
  | nil =>
    cases b with
    | nil => rfl
    | cons v b => exact absurd (List.append_eq_nil_iff.mp h.symm).1 (escapeUnit_ne_nil v)
  | cons u a ih =>
    cases b with
    | nil => exact absurd (List.append_eq_nil_iff.mp h).1 (escapeUnit_ne_nil u)
    | cons v b =>
      obtain ⟨rfl, rest⟩ := escapeUnit_injective h
      rw [ih rest]

/-- The filters of two mailboxes are two. -/
theorem lookupFilter_injective {username username' domain domain' : JsString} (plain : 64 ∉ domain) (plain' : 64 ∉ domain')
    (h : lookupFilter username domain = lookupFilter username' domain') : username = username' ∧ domain = domain' := by
  have names (username domain : JsString) : lookupFilter username domain =
      js "(&(objectClass=person)(mail=" ++ (escapeFilter (username ++ 64 :: domain) ++ js "))") := by
    have at_ : js "@" = escapeUnit 64 := by decide
    simp only [lookupFilter, escapeFilter, at_, List.append_assoc, List.flatMap_append, List.flatMap_cons]
  rw [names, names] at h
  exact append_separator_injective_right plain plain'
    (escapeFilter_injective (List.append_cancel_right (List.append_cancel_left h)))

/-- The row of a mail address, whatever the case of its letters. -/
def Cpanel.Names (address : JsString) (row : JsValue) : Prop :=
  ∃ email, row.get "email" = .string email ∧ host.toLowerCase email = address

variable {host} in
theorem Cpanel.findRow_eq_some {address : JsString} {rows : List JsValue} {row : JsValue}
    (h : findRow host address rows = .ok (some row)) : ∃ before after, rows = before ++ row :: after ∧
      Names host address row ∧ ∀ r ∈ before, ¬ Names host address r := by
  induction rows with
  | nil => cases h
  | cons first rows ih =>
    have further (passed : ¬ Names host address first) (found : findRow host address rows = .ok (some row)) :
        ∃ before after, first :: rows = before ++ row :: after ∧ Names host address row ∧
          ∀ r ∈ before, ¬ Names host address r := by
      obtain ⟨before, after, rfl, names, passedBefore⟩ := ih found
      exact ⟨first :: before, after, rfl, names, List.forall_mem_cons.mpr ⟨passed, passedBefore⟩⟩
    unfold findRow at h
    split at h
    · cases h
    · split at h
      · rename_i email is
        split at h
        · rename_i same
          cases h
          exact ⟨[], rows, rfl, ⟨email, is, same⟩, nofun⟩
        · rename_i other
          apply further _ h
          rintro ⟨email', is', same⟩
          cases is.symm.trans is'
          exact other same
      · rename_i none
        apply further _ h
        rintro ⟨email, is, _⟩
        exact none email is

variable {host} in
/-- The account of a mailbox is the first row of its address. -/
theorem Cpanel.account_names {cpanel : Cpanel} {parsed : ParsedLoginEmail} {row : JsValue}
    (h : cpanel.account host parsed = some row) : ∃ before after, cpanel.rows = before ++ row :: after ∧
      Names host (mailAddress host parsed.username parsed.domain) row ∧
      ∀ r ∈ before, ¬ Names host (mailAddress host parsed.username parsed.domain) r := by
  unfold account at h
  split at h
  · rename_i entry found
    rw [h] at found
    exact findRow_eq_some found
  · cases h

/-- An attribute that is false: the truth value, or its text in any case. -/
def Attribute.saysFalse (value : Attribute) : Bool :=
  value.isFalse || (attributeString value).any fun s => s.map asciiLower == js "false"

namespace IdentityClient
variable (client : IdentityClient) (parsed : ParsedLoginEmail)

def externalId : Option JsString :=
  match client with
  | disabled => none
  | ldap client => (client.account parsed).bind fun entry => attributeString entry.uid
  | cpanel client => (client.account host parsed).bind fun row => (row.get "login").asString?

def markedInactive : Bool :=
  match client with
  | disabled => false
  | ldap client => (client.account parsed).any fun entry => entry.active.saysFalse
  | cpanel client => (client.account host parsed).any Cpanel.suspended

/-- The mark is of the one form that a lookup reads. -/
def readsInactive : Bool :=
  match client with
  | disabled => false
  | ldap client => (client.account parsed).any fun entry => entry.active.isFalse
  | cpanel client => (client.account host parsed).any Cpanel.suspended

/-- What a lookup of the mailbox finds when nothing fails. -/
def identity : Option TenantIdentity :=
  match client with
  | disabled => none
  | ldap client => (client.account parsed).map identityOf
  | cpanel client =>
    (client.account host parsed).map
      (Cpanel.identityOf parsed.username (Cpanel.mailAddress host parsed.username parsed.domain))

/-- Among the calls is one that verified the password of the mailbox. -/
def Verified (password : JsString) (calls : Calls) : Prop :=
  match client with
  | disabled => False
  | ldap client => ∃ entry dn, client.account parsed = some entry ∧ attributeString entry.dn = some dn ∧
      client.accepts dn password ∧ (Call.bind dn password, true) ∈ calls
  | cpanel client =>
    let address := Cpanel.mailAddress host parsed.username parsed.domain
    client.accepts address password ∧ (Call.imapLogin address password, true) ∈ calls

end IdentityClient

end

/-! ## What the clients do -/

section
variable {host : Host} {outage : Outage}

theorem retry_returns {α : Type} {operation : Io α} {P : α → Prop} (h : Returns operation P) (n : Nat) :
    Returns (Ldap.retry operation n) P := by
  induction n with
  | zero => exact h
  | succ n ih =>
    intro calls a ended
    rw [Ldap.retry] at ended
    obtain ⟨r, first, ended⟩ := Eff.bind_fst_eq_ok ended
    cases r with
    | ok b =>
      cases ended
      exact h calls a (Except.ok.inj first)
    | error => exact ih _ a ended

theorem retry_grows {α : Type} {operation : Io α} (h : Grows operation) (n : Nat) : Grows (Ldap.retry operation n) := by
  induction n with
  | zero => exact h
  | succ n ih =>
    apply grows_bind (grows_settled h)
    intro r
    cases r with
    | ok a => exact grows_pure a
    | error => exact ih

theorem Ldap.openClient_grows (ldap : Ldap) : Grows (ldap.openClient outage) := by
  apply grows_bind (grows_perform _ _ _)
  intro _
  split
  · exact grows_perform _ _ _
  · exact grows_pure ()

theorem Ldap.lookupUser_grows (ldap : Ldap) (context : JsValue) (username : JsString) :
    Grows (ldap.lookupUser outage host context username) := by
  apply grows_bind (grows_lift _)
  intro canonical
  apply grows_bind (grows_lift _)
  intro _
  apply retry_grows
  apply grows_bind (ldap.openClient_grows)
  intro _
  apply grows_bind (grows_perform _ _ _)
  intro _
  apply grows_bind (grows_perform _ _ _)
  intro _
  apply grows_bind (grows_perform _ _ _)
  intro _
  split
  · exact grows_pure none
  · exact grows_pure _
  · exact grows_lift _

theorem Cpanel.lookupUser_grows (cpanel : Cpanel) (context : JsValue) (username : JsString) :
    Grows (cpanel.lookupUser outage host context username) := by
  apply grows_bind (grows_lift _)
  intro canonical
  apply grows_bind (grows_lift _)
  intro _
  apply grows_bind (grows_perform _ _ _)
  intro _
  apply grows_bind (grows_perform _ _ _)
  intro _
  apply grows_bind (grows_lift _)
  intro entry
  exact grows_pure _

theorem IdentityClient.lookupUser_grows (client : IdentityClient) (context : JsValue) (username : JsString) :
    Grows (client.lookupUser outage host context username) := by
  cases client with
  | disabled => exact grows_lift _
  | ldap ldap => exact ldap.lookupUser_grows context username
  | cpanel cpanel => exact cpanel.lookupUser_grows context username

theorem tenantIdPattern_lower {s : JsString} (h : Integrations.tenantIdPattern s) :
    ∀ u ∈ s, u < 128 ∧ asciiLower u = u := by
  have unit (u : UInt16) (hu : isLower u || isDigit u || u == 46 || u == 95 || u == 45) :
      u < 128 ∧ asciiLower u = u := by
    simp only [asciiLower, isUpper, isLower, isDigit, Bool.or_eq_true, Bool.and_eq_true, decide_eq_true_eq, beq_iff_eq,
      UInt16.le_iff_toNat_le, ← UInt16.toNat_inj, UInt16.lt_iff_toNat_lt] at hu ⊢
    simp only [UInt16.reduceToNat] at hu ⊢
    constructor
    · omega
    · rw [if_neg (by omega)]
  cases s with
  | nil => simp
  | cons v s =>
    rw [Integrations.tenantIdPattern, isName, Bool.and_eq_true, Bool.and_eq_true, List.all_eq_true] at h
    rw [List.forall_mem_cons]
    refine ⟨unit v ?_, fun u hu => unit u (h.2 u hu)⟩
    rw [Bool.or_eq_true, Bool.or_eq_true, Bool.or_eq_true]
    exact .inl (.inl (.inl h.1.1))

/-- The context of a login keeps the domain of the mailbox. -/
theorem loginContext_domain {parsed : ParsedLoginEmail} {context : TenantContext} (same : parsed.tenantId = parsed.domain)
    (h : loginContext host parsed = .ok context) : context.domain = parsed.domain := by
  obtain ⟨domain, domainOk, h⟩ := bind_eq_ok.mp h
  obtain ⟨role, _, h⟩ := bind_eq_ok.mp h
  obtain ⟨tenantId, tenantOk, h⟩ := bind_eq_ok.mp h
  obtain ⟨actorId, _, h⟩ := bind_eq_ok.mp h
  cases h
  have domainIs : parsed.domain = domain := JsValue.string.inj (requiredString_eq_ok.mp domainOk).1
  have tenantIs : parsed.tenantId = tenantId := JsValue.string.inj (requiredString_eq_ok.mp tenantOk).1
  have lower := tenantIdPattern_lower (requiredString_eq_ok.mp tenantOk).2
  rw [← tenantIs, same] at lower
  show host.toLowerCase domain = parsed.domain
  rw [← domainIs, host.toLowerCase_ascii _ fun u hu => (lower u hu).1]
  exact List.map_congr_left (fun u hu => (lower u hu).2) |>.trans (List.map_id _)

theorem assertTenantContext_domain {context canonical : TenantContext}
    (h : assertTenantContext host (contextValue context) = .ok canonical) : canonical.domain = context.domain := by
  obtain ⟨_, _, h⟩ := bind_eq_ok.mp h
  obtain ⟨_, _, h⟩ := bind_eq_ok.mp h
  obtain ⟨created, _, h⟩ := bind_eq_ok.mp h
  obtain ⟨_, kept, h⟩ := bind_eq_ok.mp h
  cases h
  have kept := throwIf_eq_ok.mp kept
  simp only [Bool.or_eq_false_iff, Bool.not_eq_false'] at kept
  exact (JsValue.string.inj (isString_eq kept.1.1)).symm

/-- What a lookup returns is what the directory says. -/
theorem Ldap.lookupUser_returns (ldap : Ldap) {parsed : ParsedLoginEmail} {context : TenantContext}
    (same : context.domain = parsed.domain) :
    Returns (ldap.lookupUser outage host (contextValue context) parsed.username) fun identity =>
      identity = (ldap.account parsed).map identityOf := by
  intro calls identity h
  obtain ⟨canonical, asserted, h⟩ := Eff.bind_fst_eq_ok h
  have domain : canonical.domain = parsed.domain := (assertTenantContext_domain asserted).trans same
  obtain ⟨_, _, h⟩ := Eff.bind_fst_eq_ok h
  refine retry_returns (P := fun identity => identity = (ldap.account parsed).map identityOf) ?_ ldap.retryAttempts _ identity h
  apply returns_bind
  intro _
  apply returns_bind
  intro _
  apply returns_bind
  intro _
  apply returns_bind
  intro _ calls identity h
  rw [domain] at h
  unfold Ldap.account
  generalize ldap.search ldap.userBaseDn (lookupFilter parsed.username parsed.domain) = entries at h ⊢
  cases entries with
  | nil =>
    cases h
    rfl
  | cons entry entries =>
    cases entries with
    | nil =>
      cases h
      rfl
    | cons => cases h

theorem Cpanel.lookupUser_returns (cpanel : Cpanel) {parsed : ParsedLoginEmail} {context : TenantContext}
    (same : context.domain = parsed.domain) :
    Returns (cpanel.lookupUser outage host (contextValue context) parsed.username) fun identity =>
      identity = (cpanel.account host parsed).map
        (Cpanel.identityOf parsed.username (Cpanel.mailAddress host parsed.username parsed.domain)) := by
  intro calls identity h
  obtain ⟨canonical, asserted, h⟩ := Eff.bind_fst_eq_ok h
  have domain : canonical.domain = parsed.domain := (assertTenantContext_domain asserted).trans same
  obtain ⟨_, _, h⟩ := Eff.bind_fst_eq_ok h
  obtain ⟨_, _, h⟩ := Eff.bind_fst_eq_ok h
  obtain ⟨_, _, h⟩ := Eff.bind_fst_eq_ok h
  obtain ⟨entry, read, h⟩ := Eff.bind_fst_eq_ok h
  cases h
  have read : findRow host (mailAddress host parsed.username canonical.domain) cpanel.rows = .ok entry := read
  rw [domain] at read ⊢
  unfold Cpanel.account
  rw [read]

theorem IdentityClient.lookupUser_returns (client : IdentityClient) {parsed : ParsedLoginEmail} {context : TenantContext}
    (same : context.domain = parsed.domain) :
    Returns (client.lookupUser outage host (contextValue context) parsed.username) fun identity =>
      identity = client.identity host parsed := by
  cases client with
  | disabled =>
    intro calls identity h
    cases h
  | ldap ldap => exact ldap.lookupUser_returns same
  | cpanel cpanel => exact cpanel.lookupUser_returns same

theorem Ldap.bindUser_verified (ldap : Ldap) {parsed : ParsedLoginEmail} {context : TenantContext}
    (same : context.domain = parsed.domain) {password : JsString} {calls : Calls}
    (h : (ldap.bindUser outage host (contextValue context) parsed.username password calls).1 = .ok true) :
    (IdentityClient.ldap ldap).Verified host parsed password
      (ldap.bindUser outage host (contextValue context) parsed.username password calls).2 := by
  unfold Ldap.bindUser at h ⊢
  obtain ⟨identity, looked, h⟩ := Eff.bind_fst_eq_ok h
  rw [bind_calls looked]
  have said := ldap.lookupUser_returns same _ _ looked
  cases identity with
  | none => cases h
  | some identity =>
    obtain ⟨entry, account, rfl⟩ := Option.map_eq_some_iff.mp said.symm
    dsimp only at h ⊢
    by_cases refused : ((identityOf entry).dn.getD []).isEmpty || (identityOf entry).active == false
    · rw [if_pos refused] at h
      cases h
    · rw [if_neg refused] at h ⊢
      obtain ⟨_, opened, h⟩ := Eff.bind_fst_eq_ok h
      rw [bind_calls opened]
      obtain ⟨_, bound, _⟩ := Eff.bind_fst_eq_ok h
      rw [bind_calls bound]
      obtain ⟨accepted, made⟩ := perform_eq_ok bound
      cases dn : attributeString entry.dn with
      | none =>
        apply absurd _ refused
        rw [identityOf, dn]
        rfl
      | some name =>
        have shown : (identityOf entry).dn.getD [] = name := by
          rw [identityOf, dn]
          rfl
        rw [shown] at accepted made ⊢
        exact ⟨entry, name, account, dn, accepted, made⟩

/-- A password is accepted after it was verified for the account of the mailbox. -/
theorem Ldap.authenticate_verified (ldap : Ldap) {parsed : ParsedLoginEmail} {context : TenantContext}
    (same : context.domain = parsed.domain) {password : JsString} {calls : Calls}
    (h : (ldap.authenticate outage host (contextValue context) parsed.username password calls).1 = .ok true) :
    (IdentityClient.ldap ldap).Verified host parsed password
      (ldap.authenticate outage host (contextValue context) parsed.username password calls).2 := by
  unfold Ldap.authenticate at h ⊢
  by_cases empty : password.isEmpty
  · rw [if_pos empty] at h
    cases h
  · rw [if_neg empty] at h ⊢
    obtain ⟨ended, run, h⟩ := Eff.bind_fst_eq_ok h
    rw [bind_calls run]
    have run := Except.ok.inj run
    cases ended with
    | error => cases h
    | ok answer =>
      cases h
      exact ldap.bindUser_verified same run

theorem Cpanel.authenticate_verified (cpanel : Cpanel) {parsed : ParsedLoginEmail} {context : TenantContext}
    (same : context.domain = parsed.domain) {password : JsString} {calls : Calls}
    (h : (cpanel.authenticate outage host (contextValue context) parsed.username password calls).1 = .ok true) :
    (IdentityClient.cpanel cpanel).Verified host parsed password
      (cpanel.authenticate outage host (contextValue context) parsed.username password calls).2 := by
  unfold Cpanel.authenticate at h ⊢
  obtain ⟨canonical, asserted, h⟩ := Eff.bind_fst_eq_ok h
  rw [bind_calls asserted]
  rw [(assertTenantContext_domain asserted).trans same] at h ⊢
  by_cases refused : !usernamePattern parsed.username || password.isEmpty
  · rw [if_pos refused] at h
    cases h
  · rw [if_neg refused] at h ⊢
    unfold authenticateWithImapLogin at h ⊢
    obtain ⟨_, created, h⟩ := Eff.bind_fst_eq_ok h
    rw [bind_calls created]
    obtain ⟨ended, run, h⟩ := Eff.bind_fst_eq_ok h
    rw [bind_calls run]
    have run := Except.ok.inj run
    cases ended with
    | error => cases h
    | ok u =>
      unfold imapLogin at run
      obtain ⟨_, connected, run⟩ := Eff.bind_fst_eq_ok run
      obtain ⟨accepted, made⟩ := perform_eq_ok run
      refine ⟨accepted, ?_⟩
      show _ ∈ (imapLogin cpanel outage _ _ _).2
      rw [imapLogin, bind_calls connected]
      exact made

theorem IdentityClient.authenticate_verified (client : IdentityClient) {parsed : ParsedLoginEmail}
    {context : TenantContext} (same : context.domain = parsed.domain) {password : JsString} {calls : Calls}
    (h : (client.authenticate outage host (contextValue context) parsed.username password calls).1 = .ok true) :
    client.Verified host parsed password
      (client.authenticate outage host (contextValue context) parsed.username password calls).2 := by
  cases client with
  | disabled => cases h
  | ldap ldap => exact ldap.authenticate_verified same h
  | cpanel cpanel => exact cpanel.authenticate_verified same h

theorem IdentityClient.Verified.mono {client : IdentityClient} {parsed : ParsedLoginEmail} {password : JsString}
    {calls calls' : Calls} (more : calls <:+ calls') (h : client.Verified host parsed password calls) :
    client.Verified host parsed password calls' := by
  cases client with
  | disabled => exact h
  | ldap ldap =>
    obtain ⟨entry, dn, account, name, accepted, made⟩ := h
    exact ⟨entry, dn, account, name, accepted, more.mem made⟩
  | cpanel cpanel => exact ⟨h.1, more.mem h.2⟩

end

/-! ## One login -/

theorem parseLoginEmail_tenant {host : Host} {email : JsValue} {parsed : ParsedLoginEmail}
    (h : parseLoginEmail host email = some parsed) : parsed.tenantId = parsed.domain := by
  unfold parseLoginEmail at h
  split at h
  · split at h
    · split at h
      · cases h
      · cases h
        rfl
    · cases h
  · cases h

section
variable {host : Host} {adapter : Adapter} {outage : Outage}

/-- The client of an adapter; one that makes none serves as one that is disabled. -/
def Adapter.client (adapter : Adapter) : IdentityClient :=
  match adapter.createIdentityClient with
  | .ok client => client
  | .error _ => .disabled

def Cached (adapter : Adapter) (clientPromise : Authenticator) : Prop :=
  ∀ client, clientPromise = some (.ok client) → client = adapter.client

theorem identityClient_ok {clientPromise : Authenticator} (cached : Cached adapter clientPromise) {calls : Calls}
    {client : IdentityClient} (h : (identityClient adapter outage clientPromise calls).1 = .ok client) :
    client = adapter.client := by
  cases clientPromise with
  | some ended =>
    apply cached
    exact congrArg some h
  | none =>
    unfold identityClient buildClient at h
    obtain ⟨_, _, h⟩ := Eff.bind_fst_eq_ok h
    obtain ⟨_, _, h⟩ := Eff.bind_fst_eq_ok h
    have made : adapter.createIdentityClient = .ok client := h
    rw [Adapter.client, made]

/-- How the lookup of a login ends; `none` for a login that does not get so far,
because it does not authenticate. -/
def lookedUp (client : IdentityClient) (outage : Outage) (host : Host) (parsed : ParsedLoginEmail) (password : JsString)
    (calls : Calls) : Option (Except Unit (Option TenantIdentity)) :=
  match loginContext host parsed with
  | .error _ => none
  | .ok context =>
    match client.authenticate outage host (contextValue context) parsed.username password calls with
    | (.ok true, calls) => some (client.lookupUser outage host (contextValue context) parsed.username calls).1
    | _ => none

/-- A lookup that does not fail finds what the directory says. -/
theorem lookedUp_eq {client : IdentityClient} {parsed : ParsedLoginEmail} {password : JsString} {calls : Calls}
    {identity : Option TenantIdentity} (same : parsed.tenantId = parsed.domain)
    (h : lookedUp client outage host parsed password calls = some (.ok identity)) :
    identity = client.identity host parsed := by
  unfold lookedUp at h
  split at h
  · cases h
  · rename_i context created
    split at h
    · exact client.lookupUser_returns (loginContext_domain same created) _ _ (Option.some.inj h)
    · cases h

theorem loginWith_session {client : IdentityClient} {parsed : ParsedLoginEmail} {password : JsString} {calls : Calls}
    {session : SessionIdentity} (same : parsed.tenantId = parsed.domain)
    (h : (loginWith client outage host parsed password calls).1 = .ok (some session)) :
    ∃ ended, lookedUp client outage host parsed password calls = some ended ∧
      sessionOf parsed (found ended) = some session ∧
      client.Verified host parsed password (loginWith client outage host parsed password calls).2 := by
  unfold loginWith at h ⊢
  by_cases disabled : !client.enabled
  · rw [if_pos disabled] at h
    cases h
  · rw [if_neg disabled] at h ⊢
    unfold lookedUp
    cases created : loginContext host parsed with
    | error e =>
      rw [created] at h
      cases h
    | ok context =>
      rw [created] at h
      dsimp only at h ⊢
      have domain := loginContext_domain same created
      obtain ⟨ended, run, h⟩ := Eff.bind_fst_eq_ok h
      rw [bind_calls run]
      have run := Except.ok.inj run
      cases ended with
      | error => cases h
      | ok answer =>
        cases answer with
        | false => cases h
        | true =>
          have verified := client.authenticate_verified domain run
          obtain ⟨ended, looked, h⟩ := Eff.bind_fst_eq_ok h
          have looked := Except.ok.inj looked
          refine ⟨ended, ?_, Except.ok.inj h, ?_⟩
          · rw [show client.authenticate outage host (contextValue context) parsed.username password calls =
              (.ok true, (client.authenticate outage host (contextValue context) parsed.username password calls).2) from
                Prod.ext run rfl]
            dsimp only
            exact congrArg some looked
          · exact verified.mono (client.lookupUser_grows _ _ _)

attribute [local simp] login in
/-- A session is for a mailbox whose password was verified, with what its lookup found. -/
theorem login_session {clientPromise clientPromise' : Authenticator} {credentials : LoginCredentials}
    {session : SessionIdentity} {calls : Calls} (cached : Cached adapter clientPromise)
    (h : login adapter outage host clientPromise credentials = (some session, calls, clientPromise')) :
    ∃ parsed password ended, parseLoginEmail host credentials.email = some parsed ∧
      credentials.password = .string password ∧
      lookedUp adapter.client outage host parsed password (identityClient adapter outage clientPromise []).2 =
        some ended ∧
      sessionOf parsed (found ended) = some session ∧ adapter.client.Verified host parsed password calls := by
  unfold login at h
  split at h
  · rename_i parsed password read isText
    split at h
    · cases h
    · split at h
      · cases h
      · rename_i client before made
        have client_eq := identityClient_ok cached (congrArg Prod.fst made)
        have same := parseLoginEmail_tenant read
        split at h
        · rename_i answer after ended
          cases h
          obtain ⟨lookup, looked, built, verified⟩ := loginWith_session same (congrArg Prod.fst ended)
          rw [ended] at verified
          rw [client_eq] at looked verified
          refine ⟨parsed, password, lookup, read, isText, ?_, built, verified⟩
          rw [made]
          exact looked
        · cases h
  · cases h

theorem login_cached {clientPromise : Authenticator} {credentials : LoginCredentials}
    (cached : Cached adapter clientPromise) :
    Cached adapter (login adapter outage host clientPromise credentials).2.2 := by
  unfold login
  split
  · split
    · exact cached
    · split
      · intro client h
        cases h
      · rename_i client before made
        have client_eq := identityClient_ok cached (congrArg Prod.fst made)
        have kept : Cached adapter (some (.ok client)) := by
          intro other h
          cases h
          exact client_eq
        split
        · exact kept
        · exact kept
  · exact cached

end

/-- The client that is there is kept. -/
theorem login_keeps {clientPromise : Authenticator} {credentials : LoginCredentials} {parsed : ParsedLoginEmail}
    {password : JsString} {client : IdentityClient} {calls : Calls}
    (read : parseLoginEmail host credentials.email = some parsed) (isText : credentials.password = .string password)
    (given : password ≠ []) (made : identityClient adapter outage clientPromise [] = (.ok client, calls)) :
    (login adapter outage host clientPromise credentials).2.2 = some (.ok client) := by
  unfold login
  rw [read, isText]
  dsimp only
  rw [if_neg (by rwa [List.isEmpty_iff]), made]
  dsimp only
  split
  · rfl
  · rfl

/-! ## Runs -/

structure LoginEvent where
  credentials : LoginCredentials
  outage : Outage
  session : Option SessionIdentity
  calls : Calls

def logins (host : Host) (adapter : Adapter) : Machine Authenticator LoginEvent where
  Start clientPromise := clientPromise = none
  Step clientPromise e clientPromise' :=
    login adapter e.outage host clientPromise e.credentials = (e.session, e.calls, clientPromise')

section
variable (host : Host)

/-- The mailbox and the password that a login is for. -/
def LoginEvent.For (e : LoginEvent) (parsed : ParsedLoginEmail) (password : JsString) : Prop :=
  parseLoginEmail host e.credentials.email = some parsed ∧ e.credentials.password = .string password

/-- A session is for an account that is not marked inactive, and its password was verified. -/
def Verifies (client : IdentityClient) (past : List LoginEvent) : Prop :=
  ∀ e ∈ past, ∀ session, e.session = some session → ∃ parsed password, e.For host parsed password ∧
    client.Verified host parsed password e.calls ∧ client.markedInactive host parsed = false

/-- A mailbox has one user. -/
def OneUser (past : List LoginEvent) : Prop :=
  ∀ e ∈ past, ∀ e' ∈ past, ∀ session session', e.session = some session → e'.session = some session' →
    parseLoginEmail host e.credentials.email = parseLoginEmail host e'.credentials.email →
    session.userId = session'.userId

/-- Mailboxes of one tenant that differ in their external ids differ in their users. -/
def OwnUser (client : IdentityClient) (past : List LoginEvent) : Prop :=
  ∀ e ∈ past, ∀ e' ∈ past, ∀ session session', e.session = some session → e'.session = some session' →
    ∀ parsed parsed', parseLoginEmail host e.credentials.email = some parsed →
    parseLoginEmail host e'.credentials.email = some parsed' → parsed ≠ parsed' → parsed.tenantId = parsed'.tenantId →
    client.externalId host parsed ≠ client.externalId host parsed' → session.userId ≠ session'.userId

/-- The identities given are those of the users who logged in. -/
structure Entitled (client : IdentityClient) (past : List LoginEvent) : Prop where
  verified : Verifies host client past
  one : OneUser host past
  own : OwnUser host client past

/-- What a login needs of the directory, given whether its lookup fails: an
account marked inactive is looked up, and the mark is read; when the lookup
fails, the account has no external id or is named by it; and an account without
external id has the name of no other's. -/
structure Answered (client : IdentityClient) (parsed : ParsedLoginEmail) (failed : Prop) : Prop where
  inactive : client.markedInactive host parsed = true → ¬ failed ∧ client.readsInactive host parsed = true
  named : failed → ∀ id, client.externalId host parsed = some id → id = parsed.username
  unclaimed : client.externalId host parsed = none → ∀ other, other.tenantId = parsed.tenantId →
    client.externalId host other ≠ some parsed.username

/-- Every login that authenticates is answered so. -/
def Answers (adapter : Adapter) (clientPromise : Authenticator) (e : LoginEvent) : Prop :=
  ∀ parsed password ended, e.For host parsed password →
    lookedUp adapter.client e.outage host parsed password (identityClient adapter e.outage clientPromise []).2 =
      some ended → Answered host adapter.client parsed (ended = .error ())

end

section
variable {host : Host} {client : IdentityClient} {parsed : ParsedLoginEmail}

theorem identity_inactive (reads : client.readsInactive host parsed = true) :
    ((client.identity host parsed).any fun i => i.active == false) = true := by
  cases client with
  | disabled => cases reads
  | ldap ldap =>
    rw [IdentityClient.readsInactive] at reads
    rw [IdentityClient.identity, Option.any_map]
    obtain ⟨entry, account, flag⟩ := (Option.any_eq_true _ _).mp reads
    rw [account, Option.any_some]
    simp [identityOf, flag]
  | cpanel cpanel =>
    rw [IdentityClient.readsInactive] at reads
    rw [IdentityClient.identity, Option.any_map]
    obtain ⟨row, account, flag⟩ := (Option.any_eq_true _ _).mp reads
    rw [account, Option.any_some]
    simp [Cpanel.identityOf, flag]

variable {ended : Except Unit (Option TenantIdentity)} {session : SessionIdentity}
  (said : ∀ identity, ended = .ok identity → identity = client.identity host parsed)
  (answered : Answered host client parsed (ended = .error ())) (h : sessionOf parsed (found ended) = some session)
include said answered h

/-- The user of an account: its external id, or its name where it has none. -/
theorem userId_eq : session.userId = (client.externalId host parsed).getD parsed.username := by
  have shown : session.userId = ((found ended).bind TenantIdentity.externalId).getD parsed.username := by
    unfold sessionOf at h
    split at h
    · cases h
    · obtain ⟨role, _, rfl⟩ := Option.map_eq_some_iff.mp h
      rfl
  rw [shown]
  cases ended with
  | error =>
    cases known : client.externalId host parsed with
    | none => rfl
    | some id => exact (answered.named rfl id known).symm
  | ok identity =>
    rw [said identity rfl, found]
    cases client with
    | disabled => rfl
    | ldap ldap =>
      rw [IdentityClient.identity, IdentityClient.externalId]
      cases ldap.account parsed with
      | none => rfl
      | some entry => rfl
    | cpanel cpanel =>
      rw [IdentityClient.identity, IdentityClient.externalId]
      cases cpanel.account host parsed with
      | none => rfl
      | some row => rfl

theorem active_of_session : client.markedInactive host parsed = false := by
  by_contra inactive
  rw [Bool.not_eq_false] at inactive
  obtain ⟨works, reads⟩ := answered.inactive inactive
  cases ended with
  | error => exact works rfl
  | ok identity =>
    rw [said identity rfl, sessionOf, found, if_pos (identity_inactive reads)] at h
    cases h

end

section
variable {host : Host} {client : IdentityClient}

/-- A login that got the identity of the user of its mailbox. -/
def Explained (host : Host) (client : IdentityClient) (e : LoginEvent) : Prop :=
  ∀ session, e.session = some session → ∃ parsed password, e.For host parsed password ∧
    client.Verified host parsed password e.calls ∧ client.markedInactive host parsed = false ∧
    session.userId = (client.externalId host parsed).getD parsed.username ∧
    (client.externalId host parsed = none → ∀ other, other.tenantId = parsed.tenantId →
      client.externalId host other ≠ some parsed.username)

theorem step_explained {adapter : Adapter} {clientPromise clientPromise' : Authenticator} {e : LoginEvent}
    (cached : Cached adapter clientPromise) (step : (logins host adapter).Step clientPromise e clientPromise')
    (answers : Answers host adapter clientPromise e) : Explained host adapter.client e := by
  intro session given
  have ended : login adapter e.outage host clientPromise e.credentials = (e.session, e.calls, clientPromise') := step
  rw [given] at ended
  obtain ⟨parsed, password, lookup, read, isText, looked, built, verified⟩ := login_session cached ended
  have answered := answers parsed password lookup ⟨read, isText⟩ looked
  have said (identity : Option TenantIdentity) (is : lookup = .ok identity) : identity = adapter.client.identity host parsed := by
    rw [is] at looked
    exact lookedUp_eq (parseLoginEmail_tenant read) looked
  exact ⟨parsed, password, ⟨read, isText⟩, verified, active_of_session said answered built, userId_eq said answered built,
    answered.unclaimed⟩

theorem entitled_of_explained {past : List LoginEvent} (h : ∀ e ∈ past, Explained host client e) :
    Entitled host client past := by
  constructor
  · intro e he session given
    obtain ⟨parsed, password, whose, verified, active, _⟩ := h e he session given
    exact ⟨parsed, password, whose, verified, active⟩
  · intro e he e' he' session session' given given' same
    obtain ⟨parsed, _, ⟨read, _⟩, _, _, user, _⟩ := h e he session given
    obtain ⟨parsed', _, ⟨read', _⟩, _, _, user', _⟩ := h e' he' session' given'
    rw [read, read', Option.some_inj] at same
    rw [user, user', same]
  · intro e he e' he' session session' given given' parsed parsed' read read' _ tenant different
    obtain ⟨_, _, ⟨readAgain, _⟩, _, _, user, unclaimed⟩ := h e he session given
    obtain ⟨_, _, ⟨readAgain', _⟩, _, _, user', unclaimed'⟩ := h e' he' session' given'
    rw [read, Option.some_inj] at readAgain
    rw [read', Option.some_inj] at readAgain'
    subst readAgain readAgain'
    rw [user, user']
    cases first : client.externalId host parsed with
    | none =>
      cases second : client.externalId host parsed' with
      | none => exact absurd (first.trans second.symm) different
      | some id' =>
        intro equal
        apply unclaimed first parsed' tenant.symm
        rw [second]
        exact congrArg some equal.symm
    | some id =>
      cases second : client.externalId host parsed' with
      | none =>
        intro equal
        apply unclaimed' second parsed tenant
        rw [first]
        exact congrArg some equal
      | some id' =>
        intro equal
        apply different
        rw [first, second]
        exact congrArg some equal

end

/-- In every run whose logins are answered so, the identities given are those
of the users who logged in. -/
theorem logins_entitled (host : Host) (adapter : Adapter) {past : List LoginEvent} {clientPromise : Authenticator}
    (run : ((logins host adapter).restrict (Answers host adapter)).Run past clientPromise) :
    Entitled host adapter.client past := by
  have explained : Cached adapter clientPromise ∧ ∀ e ∈ past, Explained host adapter.client e := by
    apply run.invariant (P := fun past clientPromise =>
      Cached adapter clientPromise ∧ ∀ e ∈ past, Explained host adapter.client e)
    · intro start unmade
      constructor
      · intro client h
        rw [show start = none from unmade] at h
        cases h
      · nofun
    · intro past s e s' ⟨cached, before⟩ ⟨step, answers⟩
      constructor
      · have after : Cached adapter (login adapter e.outage host s e.credentials).2.2 := login_cached cached
        rw [show login adapter e.outage host s e.credentials = (e.session, e.calls, s') from step] at after
        exact after
      · rw [List.forall_mem_cons]
        exact ⟨step_explained cached step answers, before⟩
  exact entitled_of_explained explained.2

/-! ## A directory in which they are not -/

section

def credentials (email : String) : LoginCredentials := ⟨.string (js email), .string (js "secret")⟩

def event (adapter : Adapter) (clientPromise : Authenticator) (email : String) (outage : Outage) : LoginEvent :=
  let ended := login adapter outage asciiHost clientPromise (credentials email)
  ⟨credentials email, outage, ended.1, ended.2.1⟩

theorem event_step {adapter : Adapter} {clientPromise clientPromise' : Authenticator} {email : String} {outage : Outage}
    (h : (login adapter outage asciiHost clientPromise (credentials email)).2.2 = clientPromise') :
    (logins asciiHost adapter).Step clientPromise (event adapter clientPromise email outage) clientPromise' :=
  Prod.ext rfl (Prod.ext rfl h)

def person (uid : String) (active : Attribute) : LdapEntry :=
  ⟨.text (js "uid=" ++ js uid), .text (js uid), .absent, .absent, .absent, active, .absent⟩

def directory (search : JsString → List LdapEntry) : Adapter :=
  ⟨true, .ok (.ldap ⟨false, js "cn=reader", js "ldap/bind", js "ou=people", 0, fun _ => js "secret", fun _ => search,
    fun _ password => password == js "secret"⟩)⟩

/-- The mailbox `alice` of a user `u-1`, which is disabled, and the mailbox `bob` of a user `alice`. -/
def acme : Adapter := directory fun filter =>
  if filter = lookupFilter (js "alice") (js "acme.test") then [person "u-1" (.texts [js "FALSE"])]
  else if filter = lookupFilter (js "bob") (js "acme.test") then [person "alice" .absent]
  else []

def works : Outage := fun _ _ => false

/-- Nothing is found any more once the password of `u-1` was verified. -/
def lookupFails : Outage := fun calls call =>
  match call with
  | .search _ _ => decide ((Call.bind (js "uid=u-1") (js "secret"), true) ∈ calls)
  | _ => false

def ready : Authenticator := some acme.createIdentityClient

def acmeLogins : List LoginEvent :=
  [event acme ready "bob@acme.test" works, event acme ready "alice@acme.test" lookupFails,
    event acme none "alice@acme.test" works]

def mailbox (name : String) : ParsedLoginEmail := ⟨js "acme.test", js "acme.test", js name⟩

/-- The disabled user logs in, is another user when the lookup fails, and then
the same user as another mailbox. -/
theorem logins_not_entitled :
    (logins asciiHost acme).Run acmeLogins ready ∧ ¬ Verifies asciiHost acme.client acmeLogins ∧
      ¬ OneUser asciiHost acmeLogins ∧ ¬ OwnUser asciiHost acme.client acmeLogins := by
  have bob : (event acme ready "bob@acme.test" works).session =
      some ⟨js "acme.test", js "acme.test", js "alice", js "alice", .user⟩ := by decide +kernel
  have again : (event acme ready "alice@acme.test" lookupFails).session =
      some ⟨js "acme.test", js "acme.test", js "alice", js "alice", .user⟩ := by decide +kernel
  have alice : (event acme none "alice@acme.test" works).session =
      some ⟨js "acme.test", js "acme.test", js "u-1", js "u-1", .user⟩ := by decide +kernel
  have readAlice : parseLoginEmail asciiHost (.string (js "alice@acme.test")) = some (mailbox "alice") := by
    decide
  have readBob : parseLoginEmail asciiHost (.string (js "bob@acme.test")) = some (mailbox "bob") := by decide
  have first : event acme none "alice@acme.test" works ∈ acmeLogins := by simp [acmeLogins]
  have second : event acme ready "alice@acme.test" lookupFails ∈ acmeLogins := by simp [acmeLogins]
  have third : event acme ready "bob@acme.test" works ∈ acmeLogins := by simp [acmeLogins]
  have given : js "secret" ≠ [] := by decide
  refine ⟨?_, ?_, ?_, ?_⟩
  · have one : (login acme works asciiHost none (credentials "alice@acme.test")).2.2 = ready :=
      login_keeps readAlice rfl given rfl
    have two : (login acme lookupFails asciiHost ready (credentials "alice@acme.test")).2.2 = ready :=
      login_keeps readAlice rfl given rfl
    have three : (login acme works asciiHost ready (credentials "bob@acme.test")).2.2 = ready :=
      login_keeps readBob rfl given rfl
    exact .next (.next (.next (.start rfl) (event_step one)) (event_step two)) (event_step three)
  · intro h
    obtain ⟨parsed, password, ⟨read, _⟩, _, active⟩ := h _ first _ alice
    cases readAlice.symm.trans read
    have inactive : acme.client.markedInactive asciiHost (mailbox "alice") = true := by decide
    rw [inactive] at active
    cases active
  · intro h
    have same := h _ first _ second _ _ alice again rfl
    exact absurd same (by decide)
  · intro h
    have ids : acme.client.externalId asciiHost (mailbox "alice") ≠ acme.client.externalId asciiHost (mailbox "bob") := by
      decide
    exact h _ second _ third _ _ again bob _ _ readAlice readBob (by decide) rfl ids rfl

def mailRow (email login : String) (suspended : Bool) : JsValue :=
  .object [(js "email", .string (js email)), (js "login", .string (js login)), (js "suspended_login", .bool suspended)]

/-- The mailbox `alice` of a user `u-1`, which is suspended, and the mailbox `bob` of a user `bob`. -/
def mailboxes : Adapter :=
  ⟨true, .ok (.cpanel ⟨js "cpanel/token", fun _ => js "token", .object [(js "data", .array
    [mailRow "alice@acme.test" "u-1" true, mailRow "Bob@acme.test" "bob" false])],
    fun _ password => password == js "secret"⟩)⟩

/-- The list of mailboxes cannot be had. -/
def unlisted : Outage := fun _ call => decide (call = .listPops)

def shared : Authenticator := some mailboxes.createIdentityClient

def mailboxLogins : List LoginEvent :=
  [event mailboxes shared "bob@acme.test" unlisted, event mailboxes shared "bob@acme.test" works,
    event mailboxes none "alice@acme.test" works]

/-- A suspended account gets no session, and a user is the same one when the lookup fails. -/
theorem logins_entitled_mailboxes : mailboxLogins.map (fun e => e.session.map SessionIdentity.userId) =
      [some (js "bob"), some (js "bob"), none] ∧ Entitled asciiHost mailboxes.client mailboxLogins := by
  refine ⟨by decide +kernel, ?_⟩
  apply @logins_entitled asciiHost mailboxes _ shared
  have readAlice : parseLoginEmail asciiHost (.string (js "alice@acme.test")) = some (mailbox "alice") := by
    decide
  have readBob : parseLoginEmail asciiHost (.string (js "bob@acme.test")) = some (mailbox "bob") := by decide
  have given : js "secret" ≠ [] := by decide
  have known : mailboxes.client.externalId asciiHost (mailbox "bob") = some (js "bob") := by decide
  have active : mailboxes.client.markedInactive asciiHost (mailbox "bob") = false := by decide
  have bob (failed : Prop) : Answered asciiHost mailboxes.client (mailbox "bob") failed := by
    constructor
    · intro inactive
      rw [active] at inactive
      cases inactive
    · intro _ id same
      exact Option.some.inj (same.symm.trans known)
    · rw [known]
      nofun
  have one : (login mailboxes works asciiHost none (credentials "alice@acme.test")).2.2 = shared :=
    login_keeps readAlice rfl given rfl
  have two : (login mailboxes works asciiHost shared (credentials "bob@acme.test")).2.2 = shared :=
    login_keeps readBob rfl given rfl
  have three : (login mailboxes unlisted asciiHost shared (credentials "bob@acme.test")).2.2 = shared :=
    login_keeps readBob rfl given rfl
  have suspended : Answers asciiHost mailboxes none (event mailboxes none "alice@acme.test" works) := by
    rintro parsed password ended ⟨read, isText⟩ looked
    cases readAlice.symm.trans read
    cases isText
    have found : (lookedUp mailboxes.client works asciiHost (mailbox "alice") (js "secret")
        (identityClient mailboxes works none []).2).any (·.isOk) = true := by decide
    replace looked : lookedUp mailboxes.client works asciiHost (mailbox "alice") (js "secret")
        (identityClient mailboxes works none []).2 = some ended := looked
    rw [looked] at found
    have mark : mailboxes.client.readsInactive asciiHost (mailbox "alice") = true := by decide
    have named : mailboxes.client.externalId asciiHost (mailbox "alice") = some (js "u-1") := by decide
    have answered : ended ≠ .error () := by
      rintro rfl
      cases found
    constructor
    · exact fun _ => ⟨answered, mark⟩
    · exact fun failed => absurd failed answered
    · rw [named]
      nofun
  have known (clientPromise : Authenticator) (outage : Outage) :
      Answers asciiHost mailboxes clientPromise (event mailboxes clientPromise "bob@acme.test" outage) := by
    rintro parsed password ended ⟨read, _⟩ _
    cases readBob.symm.trans read
    exact bob _
  exact .next (.next (.next (.start rfl) ⟨event_step one, suspended⟩) ⟨event_step two, known _ _⟩)
    ⟨event_step three, known _ _⟩

end

end GuloGulo.Identity
