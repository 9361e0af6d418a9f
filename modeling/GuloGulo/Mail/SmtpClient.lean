import GuloGulo.Data.DotStuffing
import GuloGulo.Js.Decode
import GuloGulo.Js.Pattern
import GuloGulo.Sql.Environment

/-!
# Sending a message

`data` of `core/mail/smtp-client.ts`, and what it puts on the wire. A reply of
the server is read as a whole, and what is written are the bytes of the text.
-/

namespace GuloGulo.Mail.Smtp
open Js Data Sql

structure SmtpResponse where
  code : Nat
  lines : List JsString
  deriving DecidableEq

inductive SmtpFailure where
  | client (message code : String)
  | command (response : SmtpResponse)
  deriving DecidableEq

def smtpClientError (message code : String) : SmtpFailure := .client s!"SMTP client error: {message}" code

inductive Operation where
  | connected
  | write (text : JsString)
  | flush (text : JsString)
  | readResponse

/-- A socket that is gone, a write that fails and a reply that is none are
answers; a failure of the reply is that of the reading. -/
abbrev Operation.Answer : Operation → Type
  | connected => Bool
  | write _ => Unit
  | flush _ => Bool
  | readResponse => Except SmtpFailure SmtpResponse

abbrev Session (α : Type) : Type := Program SmtpFailure Operation.Answer α

def call (op : Operation) : Session op.Answer := Program.send op

def refuse (condition : Bool) (error : SmtpFailure) : Session Unit := if condition then .throw error else pure ()

def write (text : JsString) : Session Unit := do
  let connected ← call .connected
  refuse (!connected) (smtpClientError "not connected" "NOT_CONNECTED")
  call (.write text)

def expect (codes : List Nat) : Session SmtpResponse := do
  let read ← call .readResponse
  let response ← Program.lift read
  refuse (!codes.contains response.code) (.command response)
  return response

def runCommand (text : JsString) (codes : List Nat) : Session SmtpResponse := do
  write (text ++ crlf)
  expect codes

def stuffLine (line : JsString) : JsString := if startsWith line [46] then 46 :: line else line

def dotStuff (content : JsString) : JsString :=
  join ((splitString crlf (normalizeNewlines content)).map stuffLine) crlf

inductive Content where
  | string (text : JsString)
  | buffer (bytes : List UInt8)

def Content.body : Content → JsString
  | string text => text
  | buffer bytes => utf8Text bytes

/-- After the message a failure other than a reply leaves open what came of it. -/
def outcomeUnknown : SmtpFailure → SmtpFailure
  | .command response => .command response
  | .client .. =>
    smtpClientError "the connection failed before the server confirmed the message" "DATA_OUTCOME_UNKNOWN"

def data (content : Content) : Session SmtpResponse := do
  let _ ← runCommand (js "DATA") [354]
  let connected ← call .connected
  refuse (!connected) (smtpClientError "not connected" "NOT_CONNECTED")
  let flushed ← call (.flush (dotStuff content.body ++ crlf ++ js "." ++ crlf))
  refuse (!flushed) (smtpClientError "the connection failed while the message was sent" "CONNECTION_CLOSED")
  Program.tryCatch (expect [250]) fun error => .throw (outcomeUnknown error)

/-- Any answer, and the writes kept. -/
def wire : Environment Operation.Answer (List (List UInt8)) where
  step
    | log, .write text, _, log' => log' = log ++ [utf8 text]
    | log, .flush text, _, log' => log' = log ++ [utf8 text]
    | log, .connected, _, log' => log' = log
    | log, .readResponse, _, log' => log' = log

theorem crlfOnly_normalizeNewlines (s : JsString) : CrlfOnly (normalizeNewlines s) := by
  induction len : s.length using Nat.strongRecOn generalizing s with
  | _ n ih =>
    cases s with
    | nil => exact .nil
    | cons u s =>
      rw [List.length_cons] at len
      have rest := ih s.length (by omega) s rfl
      by_cases isCr : u = 13
      · subst isCr
        by_cases next : ∃ t, s = 10 :: t
        · obtain ⟨t, rfl⟩ := next
          rw [normalizeNewlines_crlf]
          exact .newline (ih t.length (by simp only [List.length_cons] at len; omega) t rfl)
        · rw [normalizeNewlines_cr fun t same => next ⟨t, same⟩]
          exact .newline rest
      · by_cases isLf : u = 10
        · subst isLf
          rw [normalizeNewlines_lf]
          exact .newline rest
        · rw [normalizeNewlines_unit isCr isLf]
          exact .unit isCr isLf rest

theorem lines_of_crlfOnly {s : JsString} (h : CrlfOnly s) :
    ∃ lines : List JsString, lines ≠ [] ∧ (∀ l ∈ lines, 13 ∉ l ∧ 10 ∉ l) ∧ join lines crlf = s := by
  induction h with
  | nil => exact ⟨[[]], by simp, by simp, rfl⟩
  | @unit u s cr lf rest ih =>
    obtain ⟨lines, some', clean, rfl⟩ := ih
    cases lines with
    | nil => exact absurd rfl some'
    | cons l lines =>
      refine ⟨(u :: l) :: lines, by simp, ?_, ?_⟩
      · rw [List.forall_mem_cons] at clean ⊢
        obtain ⟨⟨noCr, noLf⟩, clean⟩ := clean
        exact ⟨⟨Marks.not_mem_cons (Ne.symm cr) noCr, Marks.not_mem_cons (Ne.symm lf) noLf⟩, clean⟩
      · cases lines with
        | nil => rfl
        | cons m lines => rfl
  | @newline s rest ih =>
    obtain ⟨lines, some', clean, rfl⟩ := ih
    refine ⟨[] :: lines, by simp, ?_, ?_⟩
    · rw [List.forall_mem_cons]
      exact ⟨⟨List.not_mem_nil, List.not_mem_nil⟩, clean⟩
    · cases lines with
      | nil => exact absurd rfl some'
      | cons m lines => rfl

/-- The marks of a message in UTF-8. -/
def marks : Marks UInt8 := ⟨13, 10, 46, by decide, by decide, by decide⟩

/-- Bytes of no ASCII character. -/
def High (bytes : List UInt8) : Prop := bytes ≠ [] ∧ ∀ b ∈ bytes, 128 ≤ b.toNat

theorem high_replacement : High replacement := by
  refine ⟨List.cons_ne_nil _ _, ?_⟩
  rw [replacement, List.forall_mem_cons, List.forall_mem_cons, List.forall_mem_singleton]
  decide

theorem high_ofNat {n : Nat} (low : 128 ≤ n) (small : n < 256) : 128 ≤ (UInt8.ofNat n).toNat := by
  rw [UInt8.toNat_ofNat_of_lt' small]
  exact low

theorem high_utf8Bmp {n : Nat} (low : 128 ≤ n) (small : n < 65536) : High (utf8Bmp n) := by
  unfold utf8Bmp
  rw [if_neg (by omega)]
  split
  · refine ⟨by simp, ?_⟩
    simp only [List.mem_cons, List.not_mem_nil, or_false, forall_eq_or_imp, forall_eq]
    exact ⟨high_ofNat (by omega) (by omega), high_ofNat (by omega) (by omega)⟩
  · refine ⟨by simp, ?_⟩
    simp only [List.mem_cons, List.not_mem_nil, or_false, forall_eq_or_imp, forall_eq]
    exact ⟨high_ofNat (by omega) (by omega), high_ofNat (by omega) (by omega), high_ofNat (by omega) (by omega)⟩

theorem high_utf8Pair {hi lo : UInt16} (high : isHighSurrogate hi = true) (low : isLowSurrogate lo = true) :
    High (utf8Pair hi lo) := by
  simp only [isHighSurrogate, isLowSurrogate, Bool.and_eq_true, decide_eq_true_eq, UInt16.le_iff_toNat_le] at high low
  have bounds : 0xD800 ≤ hi.toNat ∧ hi.toNat ≤ 0xDBFF ∧ 0xDC00 ≤ lo.toNat ∧ lo.toNat ≤ 0xDFFF :=
    ⟨high.1, high.2, low.1, low.2⟩
  have large : 0x10000 + (hi.toNat - 0xD800) * 0x400 + (lo.toNat - 0xDC00) < 0x110000 := by omega
  unfold utf8Pair
  generalize 0x10000 + (hi.toNat - 0xD800) * 0x400 + (lo.toNat - 0xDC00) = n at large
  refine ⟨by simp, ?_⟩
  simp only [List.mem_cons, List.not_mem_nil, or_false, forall_eq_or_imp, forall_eq]
  exact ⟨high_ofNat (by omega) (by omega), high_ofNat (by omega) (by omega), high_ofNat (by omega) (by omega),
    high_ofNat (by omega) (by omega)⟩

/-- The first unit is a byte of its own, or no byte of its character is ASCII. -/
theorem utf8_cons (u : UInt16) (s : JsString) :
    (u < 128 ∧ utf8 (u :: s) = UInt8.ofNat u.toNat :: utf8 s) ∨
      (¬ u < 128 ∧ ∃ bytes t, High bytes ∧ utf8 (u :: s) = bytes ++ utf8 t ∧ t.length ≤ s.length ∧ ∀ v ∈ t, v ∈ s) := by
  by_cases ascii : u < 128
  · left
    have small : u.toNat < 128 := UInt16.lt_iff_toNat_lt.mp ascii
    have lone : isHighSurrogate u = false ∧ isLowSurrogate u = false := by
      simp only [isHighSurrogate, isLowSurrogate, Bool.and_eq_false_iff, decide_eq_false_iff_not,
        UInt16.le_iff_toNat_le]
      constructor
      · left
        show ¬ 0xD800 ≤ u.toNat
        omega
      · left
        show ¬ 0xDC00 ≤ u.toNat
        omega
    have byte : utf8Bmp u.toNat = [UInt8.ofNat u.toNat] := if_pos small
    refine ⟨ascii, ?_⟩
    cases s with
    | nil => simp [utf8, lone, byte]
    | cons v s => simp [utf8, lone, byte]
  · right
    have large : 128 ≤ u.toNat := by
      rw [UInt16.lt_iff_toNat_lt] at ascii
      exact Nat.not_lt.mp ascii
    have bmp := high_utf8Bmp large u.toNat_lt
    refine ⟨ascii, ?_⟩
    cases s with
    | nil =>
      rw [utf8]
      split
      · exact ⟨replacement, [], high_replacement, (List.append_nil _).symm, Nat.le_refl _, fun _ mem => mem⟩
      · exact ⟨_, [], bmp, (List.append_nil _).symm, Nat.le_refl _, fun _ mem => mem⟩
    | cons v s =>
      rw [utf8]
      split
      · rename_i hi
        split
        · rename_i lo
          exact ⟨_, s, high_utf8Pair hi lo, rfl, by simp, fun _ mem => List.mem_cons_of_mem v mem⟩
        · exact ⟨replacement, v :: s, high_replacement, rfl, Nat.le_refl _, fun _ mem => mem⟩
      · split
        · exact ⟨replacement, v :: s, high_replacement, rfl, Nat.le_refl _, fun _ mem => mem⟩
        · exact ⟨_, v :: s, bmp, rfl, Nat.le_refl _, fun _ mem => mem⟩

/-- An ASCII byte is that of a unit. -/
theorem mem_utf8 {s : JsString} {b : UInt8} (mem : b ∈ utf8 s) (ascii : b.toNat < 128) : UInt16.ofNat b.toNat ∈ s := by
  induction len : s.length using Nat.strongRecOn generalizing s with
  | _ n ih =>
    cases s with
    | nil => cases mem
    | cons u s =>
      rw [List.length_cons] at len
      rcases utf8_cons u s with ⟨small, same⟩ | ⟨_, bytes, t, high, same, shorter, inside⟩
      · rw [same] at mem
        rcases List.mem_cons.mp mem with rfl | mem
        · have small : u.toNat < 128 := UInt16.lt_iff_toNat_lt.mp small
          rw [UInt8.toNat_ofNat_of_lt' (by show u.toNat < 256; omega), UInt16.ofNat_toNat]
          exact List.mem_cons_self
        · exact List.mem_cons_of_mem u (ih s.length (by omega) mem rfl)
      · rw [same] at mem
        rcases List.mem_append.mp mem with mem | mem
        · have := high.2 b mem
          omega
        · exact List.mem_cons_of_mem u (inside _ (ih t.length (by omega) mem rfl))

theorem utf8_line (l rest : JsString) : utf8 (l ++ crlf ++ rest) = utf8 l ++ marks.newline ++ utf8 rest := by
  have cr (s : JsString) : utf8 (13 :: 10 :: s) = 13 :: 10 :: utf8 s := by
    cases s with
    | nil => rfl
    | cons v s => rfl
  rw [List.append_assoc]
  show utf8 (l ++ 13 :: (10 :: rest)) = _
  rw [utf8_append l _ (by decide), cr, List.append_assoc]
  rfl

theorem utf8_lines (lines : List JsString) (rest : JsString) :
    utf8 (lines.flatMap (· ++ crlf) ++ rest) = marks.terminated (lines.map utf8) ++ utf8 rest := by
  induction lines with
  | nil => rfl
  | cons l lines ih =>
    rw [List.flatMap_cons, List.append_assoc, utf8_line, ih, List.map_cons, Marks.terminated, Marks.terminated,
      List.flatMap_cons]
    simp only [List.append_assoc]

theorem utf8_stuffLine (l : JsString) : utf8 (stuffLine l) = marks.stuff (utf8 l) := by
  cases l with
  | nil => rfl
  | cons u l =>
    by_cases dot : u = 46
    · subst dot
      have stuffed : stuffLine (46 :: l) = 46 :: 46 :: l := rfl
      have first (s : JsString) : utf8 (46 :: s) = 46 :: utf8 s := by
        cases s with
        | nil => rfl
        | cons v s => rfl
      rw [stuffed, first, first, Marks.stuff, List.head?_cons]
      exact (if_pos rfl).symm
    · have plain : stuffLine (u :: l) = u :: l := by
        rw [stuffLine, startsWith_cons_ne dot]
        exact if_neg Bool.false_ne_true
      have first : (utf8 (u :: l)).head? ≠ some 46 := by
        rcases utf8_cons u l with ⟨small, same⟩ | ⟨_, bytes, t, high, same, _⟩
        · rw [same, List.head?_cons]
          intro isDot
          have code := congrArg UInt8.toNat (Option.some.inj isDot)
          have small : u.toNat < 128 := UInt16.lt_iff_toNat_lt.mp small
          rw [UInt8.toNat_ofNat_of_lt' (by show u.toNat < 256; omega)] at code
          exact dot (UInt16.toNat_inj.mp code)
        · obtain ⟨some', high⟩ := high
          cases bytes with
          | nil => exact absurd rfl some'
          | cons b bytes =>
            rw [same, List.cons_append, List.head?_cons]
            intro isDot
            have := high b List.mem_cons_self
            rw [Option.some.inj isDot] at this
            exact absurd this (by decide)
      rw [plain, Marks.stuff]
      exact (if_neg first).symm

theorem clean_utf8 {l : JsString} (clean : 13 ∉ l ∧ 10 ∉ l) : marks.Clean (utf8 l) :=
  ⟨fun mem => clean.1 (mem_utf8 mem (by decide)), fun mem => clean.2 (mem_utf8 mem (by decide))⟩

/-- The bytes of a message that end where they end, and give the body back with
one kind of line ends. -/
structure Message (body : JsString) (bytes : List UInt8) : Prop where
  ends : ∃ before, marks.newline ++ bytes = before ++ (marks.newline ++ marks.terminator)
  only : ∀ before after, marks.newline ++ bytes = before ++ (marks.newline ++ marks.terminator) ++ after → after = []
  paired : marks.Paired bytes
  undone : marks.undo bytes = some (utf8 (normalizeNewlines body ++ crlf))

theorem message (body : JsString) : Message body (utf8 (dotStuff body ++ crlf ++ js "." ++ crlf)) := by
  obtain ⟨lines, some', clean, joined⟩ := lines_of_crlfOnly (crlfOnly_normalizeNewlines body)
  have lines_eq : splitString crlf (normalizeNewlines body) = lines := by
    rw [← joined]
    exact splitString_join some' fun l mem => (clean l mem).1
  have bytesClean : ∀ l ∈ lines.map utf8, marks.Clean l := by
    intro l mem
    obtain ⟨l', mem', rfl⟩ := List.mem_map.mp mem
    exact clean_utf8 (clean l' mem')
  have text : dotStuff body ++ crlf ++ js "." ++ crlf = (lines.map stuffLine).flatMap (· ++ crlf) ++ (js "." ++ crlf) := by
    have stuffed : lines.map stuffLine ≠ [] := by simpa using some'
    rw [dotStuff, lines_eq, join_terminated stuffed, List.append_assoc]
  have sent : utf8 (dotStuff body ++ crlf ++ js "." ++ crlf) = marks.sent (lines.map utf8) := by
    have dot : utf8 (js "." ++ crlf) = marks.terminator := by decide
    rw [text, utf8_lines, dot, Marks.sent, List.map_map, List.map_map]
    have same : (utf8 ∘ stuffLine) = (marks.stuff ∘ utf8) := funext utf8_stuffLine
    rw [same]
  have body' : utf8 (normalizeNewlines body ++ crlf) = marks.terminated (lines.map utf8) := by
    have whole := utf8_lines lines []
    rw [List.append_nil] at whole
    rw [← joined, join_terminated some', whole]
    exact List.append_nil _
  rw [sent]
  constructor
  · obtain ⟨before, same⟩ := Marks.newline_terminated (m := marks) ((lines.map utf8).map marks.stuff)
    refine ⟨before, ?_⟩
    rw [Marks.sent, ← List.append_assoc, same, List.append_assoc]
  · exact fun before after => Marks.terminator_last bytesClean
  · exact Marks.paired_sent bytesClean
  · rw [body']
    exact Marks.undo_sent bytesClean

section
variable {log : List (List UInt8)}

theorem wp_refuse {c : Bool} {e : SmtpFailure} {ok : Unit → List (List UInt8) → Prop}
    {error : SmtpFailure → List (List UInt8) → Prop} :
    (refuse c e).wp wire ok error log ↔ (c = false → ok () log) ∧ (c = true → error e log) := by
  cases c
  · exact ⟨fun h => ⟨fun _ => h, nofun⟩, fun h => h.1 rfl⟩
  · exact ⟨fun h => ⟨nofun, fun _ => h⟩, fun h => h.2 rfl⟩

end

end GuloGulo.Mail.Smtp
