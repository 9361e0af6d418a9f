import GuloGulo.Auth.Runtime
import GuloGulo.Js.Sha256

/-!
# Scopes of second factors

`mfaScopeId` of `runtime/mfa.ts`, which makes of a tenant or a user the id that
the factor managers know them by.
-/

namespace GuloGulo.Runtime
open Js Auth

/-- `SCOPE_ID_PATTERN`. -/
def scopeIdPattern : JsString → Bool :=
  isName (fun u => isLower u || isDigit u)
    (fun u => isLower u || isDigit u || u == 46 || u == 95 || u == 58 || u == 64 || u == 47 || u == 45) 127

def mfaScopeId (host : Host) (value : JsString) : JsString :=
  let lowered := host.toLowerCase value
  if scopeIdPattern lowered then lowered else 120 :: hex (host.sha256 (utf8 value))

section
variable (host : Host) {value : JsString}

theorem mfaScopeId_of_fits (fits : scopeIdPattern (host.toLowerCase value) = true) :
    mfaScopeId host value = host.toLowerCase value := if_pos fits

theorem mfaScopeId_of_hashed (odd : scopeIdPattern (host.toLowerCase value) = false) :
    mfaScopeId host value = 120 :: hex (host.sha256 (utf8 value)) := if_neg (by rw [odd]; exact Bool.false_ne_true)

theorem digest_fits (bytes : List UInt8) : scopeIdPattern (120 :: hex (host.sha256 bytes)) = true := by
  have digits : ∀ n < 16, (isLower (hexUnit n) || isDigit (hexUnit n)) = true := by decide
  have units := hex_units (p := fun u => (isLower u || isDigit u) = true) digits (host.sha256 bytes)
  have long : (hex (host.sha256 bytes)).length ≤ 127 := by
    rw [hex_length, host.sha256_length]
    decide
  rw [scopeIdPattern, isName, Bool.and_eq_true, Bool.and_eq_true, List.all_eq_true]
  refine ⟨⟨rfl, decide_eq_true long⟩, ?_⟩
  intro u inside
  simp only [units u inside, Bool.true_or]

/-- Whatever the id, its scope has the form of a scope. -/
theorem mfaScopeId_fits (value : JsString) : scopeIdPattern (mfaScopeId host value) = true := by
  cases fits : scopeIdPattern (host.toLowerCase value) with
  | true =>
    rw [mfaScopeId_of_fits host fits]
    exact fits
  | false =>
    rw [mfaScopeId_of_hashed host fits]
    exact digest_fits host _

theorem mfaScopeId_accepted (value : JsString) (manager name : String) :
    assertIdentityPart manager (.string (mfaScopeId host value)) name = .ok (mfaScopeId host value) :=
  if_pos (mfaScopeId_fits host value)

end

/-- When two ids have scopes of their own: their lower-case forms differ where
both fit the pattern, their UTF-8 bytes where neither does, and where one does,
it does not spell the scope of the other. -/
def ScopesDiffer (host : Host) (a b : JsString) : Prop :=
  match scopeIdPattern (host.toLowerCase a), scopeIdPattern (host.toLowerCase b) with
  | true, true => host.toLowerCase a ≠ host.toLowerCase b
  | true, false => host.toLowerCase a ≠ 120 :: hex (host.sha256 (utf8 b))
  | false, true => host.toLowerCase b ≠ 120 :: hex (host.sha256 (utf8 a))
  | false, false => utf8 a ≠ utf8 b

/-- Two ids get different scopes, both of which the managers accept, exactly when
the encoding can tell them apart; `injective` is that SHA-256 does not collide on them. -/
theorem mfaScopeId_apart_iff (host : Host) (a b : JsString)
    (injective : host.sha256 (utf8 a) = host.sha256 (utf8 b) → utf8 a = utf8 b) :
    (mfaScopeId host a ≠ mfaScopeId host b ∧ ∀ value ∈ [a, b], ∀ manager name,
        assertIdentityPart manager (.string (mfaScopeId host value)) name = .ok (mfaScopeId host value)) ↔
      ScopesDiffer host a b := by
  rw [and_iff_left fun value _ manager name => mfaScopeId_accepted host value manager name, ScopesDiffer]
  cases left : scopeIdPattern (host.toLowerCase a) <;> cases right : scopeIdPattern (host.toLowerCase b)
  · rw [mfaScopeId_of_hashed host left, mfaScopeId_of_hashed host right]
    apply not_congr
    constructor
    · intro h
      exact injective (hex_injective (List.cons.inj h).2)
    · intro h
      rw [h]
  · rw [mfaScopeId_of_hashed host left, mfaScopeId_of_fits host right]
    exact ne_comm
  · rw [mfaScopeId_of_fits host left, mfaScopeId_of_hashed host right]
  · rw [mfaScopeId_of_fits host left, mfaScopeId_of_fits host right]

theorem mfaScopeId_apart_iff_sample :
    (mfaScopeId asciiHost (js "bob") ≠ mfaScopeId asciiHost (js "Carol") ∧
        ∀ value ∈ [js "bob", js "Carol"], ∀ manager name,
          assertIdentityPart manager (.string (mfaScopeId asciiHost value)) name = .ok (mfaScopeId asciiHost value)) ↔
      ScopesDiffer asciiHost (js "bob") (js "Carol") := by
  apply mfaScopeId_apart_iff
  intro collision
  exact absurd collision (by decide)

/-- Upper case does not fit the pattern, yet shares the scope of lower case. -/
theorem capital_shares_scope :
    js "Alice" ≠ js "alice" ∧ scopeIdPattern (js "Alice") = false ∧
      mfaScopeId asciiHost (js "Alice") = mfaScopeId asciiHost (js "alice") := by
  refine ⟨by decide, by decide, by decide⟩

end GuloGulo.Runtime
