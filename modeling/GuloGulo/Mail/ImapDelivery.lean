import GuloGulo.Mail.ImapSession

/-!
# What is delivered of a response

A rendered list is cut into entries at its literals, and `command` delivers just
these. `joinLiterals` undoes the cutting, and `parseFetchList` the rendering.
-/

namespace GuloGulo.Mail.Imap
open Js

namespace FetchItem

mutual

/-- The entry that an item begins in and the literals after it, each with the
entry behind it; `behind` is how it goes on. -/
def entries (behind : JsString × List (JsString × JsString)) : FetchItem → JsString × List (JsString × JsString)
  | nil => (js "NIL" ++ behind.1, behind.2)
  | atom text => (text ++ behind.1, behind.2)
  | quoted text => (quotedString text ++ behind.1, behind.2)
  | literal text => (literalHeader text, (text, behind.1) :: behind.2)
  | list items => (40 :: (allEntries (41 :: behind.1, behind.2) items).1, (allEntries (41 :: behind.1, behind.2) items).2)

def allEntries (behind : JsString × List (JsString × JsString)) : List FetchItem → JsString × List (JsString × JsString)
  | [] => behind
  | [item] => entries behind item
  | item :: items => entries (32 :: (allEntries behind items).1, (allEntries behind items).2) item

end

end FetchItem

/-- The text of an entry with the literals after it in place. -/
def inlined (current : JsString) (rest : List (JsString × JsString)) : JsString :=
  current ++ rest.flatMap fun p => crlf ++ p.1 ++ p.2

/-- Each entry but the last ends in the header of the literal behind it. -/
inductive Chain : JsString → List (JsString × JsString) → Prop where
  | last {current : JsString} (closed : current.getLast? = some 41) : Chain current []
  | more {current literal after : JsString} {rest : List (JsString × JsString)} (front : JsString)
      (header : current = front ++ literalHeader literal) (next : Chain after rest) :
      Chain current ((literal, after) :: rest)

section
variable {current front literal after : JsString} {rest : List (JsString × JsString)}

theorem literalSuffix_header (front literal : JsString) :
    literalSuffix (front ++ literalHeader literal) = some (decimal (byteLength literal)) := by
  have digits := isDigits_decimal (byteLength literal)
  simp only [isDigits, Bool.and_eq_true, List.all_eq_true] at digits
  have shape : (front ++ literalHeader literal).reverse =
      125 :: ((decimal (byteLength literal)).reverse ++ 123 :: front.reverse) := by
    simp [literalHeader]
  have all : ∀ u ∈ (decimal (byteLength literal)).reverse, isDigit u = true :=
    fun u hu => digits.2 u (List.mem_reverse.mp hu)
  have front' : ((decimal (byteLength literal)).reverse ++ 123 :: front.reverse).takeWhile isDigit =
      (decimal (byteLength literal)).reverse := by
    rw [List.takeWhile_append_of_pos all, List.takeWhile_cons, if_neg (by decide), List.append_nil]
  have rest : ((decimal (byteLength literal)).reverse ++ 123 :: front.reverse).dropWhile isDigit = 123 :: front.reverse := by
    rw [List.dropWhile_append_of_pos all, List.dropWhile_cons, if_neg (by decide)]
  have some' : (decimal (byteLength literal)).reverse.isEmpty = false := by simpa using digits.1
  simp only [literalSuffix, shape, front', rest, some', Bool.false_eq_true, if_false, List.reverse_reverse]

theorem literalSuffix_closed (h : current.getLast? = some 41) : literalSuffix current = none := by
  obtain ⟨before, rfl⟩ : ∃ before, current = before ++ [41] := List.getLast?_eq_some_iff.mp h
  simp [literalSuffix]

theorem Chain.prepend (h : Chain current rest) (front : JsString) : Chain (front ++ current) rest := by
  cases h with
  | last closed =>
    apply Chain.last
    rw [List.getLast?_append, closed]
    rfl
  | more before header next => exact .more (front ++ before) (by rw [header, List.append_assoc]) next

attribute [local simp] inlined in
theorem inlined_cons : inlined current ((literal, after) :: rest) = inlined (current ++ crlf ++ literal ++ after) rest := by
  simp [inlined]

/-- The entries of one text are joined to it. -/
theorem joinFrom_chain (h : Chain current rest) (lines literals : List JsString) :
    joinFrom current (rest.map Prod.snd ++ lines) (rest.map Prod.fst ++ literals) =
      inlined current rest :: joinLiterals lines literals := by
  induction rest generalizing current with
  | nil =>
    cases h with
    | last closed =>
      have whole : inlined current [] = current := by simp [inlined]
      rw [whole]
      simp only [List.map_nil, List.nil_append]
      cases lines with
      | nil => rfl
      | cons line lines =>
        cases literals with
        | nil => rfl
        | cons literal literals =>
          rw [joinFrom, literalSuffix_closed closed]
          rfl
  | cons p rest ih =>
    cases h with
    | @more _ literal after _ front header next =>
      have suffix : (literalSuffix current).isSome = true := by
        rw [header, literalSuffix_header]
        rfl
      rw [inlined_cons]
      simp only [List.map_cons, List.cons_append, joinFrom, suffix, if_true]
      exact ih (next.prepend _)

end

section
open FetchItem

mutual

theorem entries_chain (x : FetchItem) {behind : JsString × List (JsString × JsString)} (h : Chain behind.1 behind.2) :
    Chain (x.entries behind).1 (x.entries behind).2 := by
  cases x with
  | nil => exact h.prepend _
  | atom text => exact h.prepend _
  | quoted text => exact h.prepend _
  | literal text => exact .more [] rfl h
  | list items =>
    have inside : Chain (41 :: behind.1) behind.2 := h.prepend [41]
    exact (allEntries_chain items inside).prepend [40]

theorem allEntries_chain (xs : List FetchItem) {behind : JsString × List (JsString × JsString)}
    (h : Chain behind.1 behind.2) : Chain (allEntries behind xs).1 (allEntries behind xs).2 := by
  match xs with
  | [] => exact h
  | [x] => exact entries_chain x h
  | x :: y :: xs =>
    have rest := allEntries_chain (y :: xs) h
    exact entries_chain x (rest.prepend [32])

end

mutual

/-- The entries hold the text of the item. -/
theorem entries_inlined (x : FetchItem) (behind : JsString × List (JsString × JsString)) :
    inlined (x.entries behind).1 (x.entries behind).2 = x.render ++ inlined behind.1 behind.2 := by
  cases x with
  | nil => simp [entries, render, inlined]
  | atom text => simp [entries, render, inlined]
  | quoted text => simp [entries, render, inlined]
  | literal text => simp [entries, render, inlined]
  | list items =>
    have inside := allEntries_inlined items (41 :: behind.1, behind.2)
    simp only [inlined, List.cons_append, List.append_assoc] at inside
    simp [entries, render, inlined, inside]

theorem allEntries_inlined (xs : List FetchItem) (behind : JsString × List (JsString × JsString)) :
    inlined (allEntries behind xs).1 (allEntries behind xs).2 = renderAll xs ++ inlined behind.1 behind.2 := by
  match xs with
  | [] => rfl
  | [x] => exact entries_inlined x behind
  | x :: y :: xs =>
    have rest := allEntries_inlined (y :: xs) behind
    have first := entries_inlined x (32 :: (allEntries behind (y :: xs)).1, (allEntries behind (y :: xs)).2)
    simp only [inlined, List.cons_append, List.append_assoc] at first rest
    simp [allEntries, renderAll, inlined, first, rest]

end

end

section
variable {tag : JsString}

/-- A literal that is not too large, and the entry behind it. -/
structure Transferable (p : JsString × JsString) : Prop where
  wellFormed : toWellFormed p.1 = p.1
  short : byteLength p.1 ≤ maxLiteralBytes
  entry : IsEntry p.2

/-- An entry and the literals after it, once the entry is read. -/
theorem feed_chain {current : JsString} {rest : List (JsString × JsString)} (h : Chain current rest)
    (ok : ∀ p ∈ rest, Transferable p) (s : Session) (more : JsString) :
    (linesFrom [] (rest.flatMap (fun p => p.1 ++ (p.2 ++ crlf)) ++ more)).foldl (Reply.feed tag) (s.next current) =
      (linesFrom [] more).foldl (Reply.feed tag)
        (.reading ⟨s.untagged ++ rest.map Prod.snd, s.literals ++ rest.map Prod.fst, .line⟩) := by
  induction rest generalizing current s with
  | nil =>
    cases h with
    | last closed =>
      have next : s.next current = .reading { s with awaits := .line } := by
        rw [Session.next, literalSuffix_closed closed]
      rw [next]
      simp
  | cons p rest ih =>
    cases h with
    | @more _ literal after _ front header next =>
      rw [List.forall_mem_cons] at ok
      obtain ⟨wellFormed, short, entry⟩ := ok.1
      have size : literalSuffix current = some (decimal (byteLength literal)) := header ▸ literalSuffix_header front literal
      have wire : ((literal, after) :: rest).flatMap (fun p => p.1 ++ (p.2 ++ crlf)) ++ more =
          literal ++ (after ++ (crlf ++ (rest.flatMap (fun p => p.1 ++ (p.2 ++ crlf)) ++ more))) := by
        simp
      have taken : (linesFrom [] (literal ++ (after ++ (crlf ++ (rest.flatMap (fun p => p.1 ++ (p.2 ++ crlf)) ++ more))))).foldl
            (Reply.feed tag) (s.next current) =
          (linesFrom [] (rest.flatMap (fun p => p.1 ++ (p.2 ++ crlf)) ++ more)).foldl (Reply.feed tag)
            (s.took literal after) := by
        simp only [Session.next, size, parseDecimal_decimal, if_neg (Nat.not_lt.mpr short)]
        by_cases empty : literal = []
        · subst empty
          have none : byteLength [] = 0 := rfl
          rw [if_pos none, List.nil_append, linesFrom_line entry.oneLine, List.foldl_cons]
          rfl
        · rw [if_neg (Nat.pos_iff_ne_zero.mp (utf8_ne_nil empty))]
          exact feed_literal wellFormed entry (List.nil_append literal).symm empty
      rw [wire, taken, Session.took, ih next ok.2]
      simp

theorem wire_eq (current : JsString) (rest : List (JsString × JsString)) :
    inlined current rest ++ crlf = current ++ (crlf ++ rest.flatMap fun p => p.1 ++ (p.2 ++ crlf)) := by
  have shift (rest : List (JsString × JsString)) : (rest.flatMap fun p => crlf ++ p.1 ++ p.2) ++ crlf =
      crlf ++ rest.flatMap fun p => p.1 ++ (p.2 ++ crlf) := by
    induction rest with
    | nil => simp
    | cons p rest ih =>
      rw [List.flatMap_cons, List.flatMap_cons, List.append_assoc, ih]
      simp only [List.append_assoc]
  rw [inlined, List.append_assoc, shift]

end

theorem toWellFormed_ascii {s : JsString} (h : ∀ u ∈ s, u < 128) (rest : JsString) :
    toWellFormed (s ++ rest) = s ++ toWellFormed rest := by
  induction s with
  | nil => rfl
  | cons u s ih =>
    rw [List.forall_mem_cons] at h
    have small : u.toNat < 128 := UInt16.lt_iff_toNat_lt.mp h.1
    have high : isHighSurrogate u = false := by
      simp only [isHighSurrogate, Bool.and_eq_false_iff, decide_eq_false_iff_not, UInt16.le_iff_toNat_le,
        UInt16.reduceToNat]
      omega
    have low : isLowSurrogate u = false := by
      simp only [isLowSurrogate, Bool.and_eq_false_iff, decide_eq_false_iff_not, UInt16.le_iff_toNat_le,
        UInt16.reduceToNat]
      omega
    rw [List.cons_append, toWellFormed_cons high low, ih h.2, List.cons_append]

section
variable {t : JsString}

theorem escape_cons (u : UInt16) (t : JsString) :
    escape (u :: t) = if u = 92 ∨ u = 34 then 92 :: u :: escape t else u :: escape t := by
  have shape : escape (u :: t) = (if u = 92 ∨ u = 34 then [92, u] else [u]) ++ escape t := rfl
  rw [shape]
  split <;> rfl

theorem escape_head (h : (escape t).head? = some 10) : t.head? = some 10 := by
  cases t with
  | nil => cases h
  | cons u t =>
    rw [escape_cons] at h
    split at h
    · cases h
    · exact h

theorem OneLine.escape (h : OneLine t) : OneLine (escape t) := by
  induction t with
  | nil => trivial
  | cons u t ih =>
    have tail : OneLine t := by
      cases t with
      | nil => trivial
      | cons v t => exact h.2
    have line : OneLine (u :: Imap.escape t) := by
      apply (ih tail).cons
      rintro rfl head
      have head := escape_head head
      cases t with
      | nil => cases head
      | cons v t =>
        cases head
        exact h.1 ⟨rfl, rfl⟩
    rw [escape_cons]
    split
    · exact line.cons fun h => absurd h (by decide)
    · exact line

theorem escape_wellFormed (h : toWellFormed t = t) : toWellFormed (escape t) = escape t := by
  have plain {u : UInt16} (other : ¬ (isHighSurrogate u = true ∨ isLowSurrogate u = true)) {rest : JsString}
      (ih : toWellFormed (escape rest) = escape rest) : toWellFormed (escape (u :: rest)) = escape (u :: rest) := by
    rw [not_or, Bool.not_eq_true, Bool.not_eq_true] at other
    have first : toWellFormed (u :: escape rest) = u :: escape rest := by rw [toWellFormed_cons other.1 other.2, ih]
    rw [escape_cons]
    split
    · rw [toWellFormed_cons (by decide) (by decide), first]
    · exact first
  have surrogate {u : UInt16} (h : isHighSurrogate u = true ∨ isLowSurrogate u = true) : ¬ (u = 92 ∨ u = 34) := by
    rintro (rfl | rfl)
    · exact absurd h (by decide)
    · exact absurd h (by decide)
  induction t using toWellFormed.induct with
  | case1 => rfl
  | case2 u lone =>
    rw [toWellFormed, if_pos lone] at h
    rw [← (List.cons.inj h).1] at lone
    exact absurd lone (by decide)
  | case3 u other => exact plain (by simpa using other) rfl
  | case4 u v rest high low ih =>
    rw [toWellFormed, if_pos high, if_pos low] at h
    have more := ih (List.cons.inj (List.cons.inj h).2).2
    rw [escape_cons, if_neg (surrogate (.inl high)), escape_cons, if_neg (surrogate (.inr low)), toWellFormed, if_pos high,
      if_pos low, more]
  | case5 u v rest high low ih =>
    rw [toWellFormed, if_pos high, if_neg low] at h
    rw [← (List.cons.inj h).1] at high
    exact absurd high (by decide)
  | case6 u v rest high low ih =>
    rw [toWellFormed, if_neg high, if_pos low] at h
    rw [← (List.cons.inj h).1] at low
    exact absurd low (by decide)
  | case7 u v rest high low ih =>
    rw [toWellFormed, if_neg high, if_neg low] at h
    exact plain (not_or.mpr ⟨high, low⟩) (ih (List.cons.inj h).2)

end

/-- A text that stays in its line, and is what UTF-8 keeps of it. -/
structure InLine (text : JsString) : Prop where
  oneLine : OneLine text
  wellFormed : toWellFormed text = text

namespace FetchItem

mutual

/-- Quoted strings and atoms stay in their line; literals are not too large. -/
def Deliverable : FetchItem → Prop
  | nil => True
  | atom text | quoted text => InLine text
  | literal text => toWellFormed text = text ∧ byteLength text ≤ maxLiteralBytes
  | list items => AllDeliverable items

def AllDeliverable : List FetchItem → Prop
  | [] => True
  | item :: items => Deliverable item ∧ AllDeliverable items

end

end FetchItem

section
open FetchItem

theorem InLine.append {a b : JsString} (ha : InLine a) (hb : IsEntry b) : InLine (a ++ b) := by
  obtain ⟨u, rest, shape, low, notLf⟩ := hb.cons
  refine ⟨ha.oneLine.append hb.oneLine (by simp [shape, notLf]), ?_⟩
  have wellFormed := hb.wellFormed
  rw [shape] at wellFormed ⊢
  rw [toWellFormed_append _ _ low, ha.wellFormed, wellFormed]

theorem InLine.entry {a : JsString} {u : UInt16} (h : InLine a) (blank : u = 32 ∨ u = 41) : IsEntry (u :: a) := by
  refine ⟨h.oneLine.cons ?_, ?_, ?_⟩
  · rintro rfl
    exact absurd blank (by decide)
  · have plain : isHighSurrogate u = false ∧ isLowSurrogate u = false := by
      rcases blank with rfl | rfl <;> decide
    rw [toWellFormed_cons plain.1 plain.2, h.wellFormed]
  · simpa using blank

theorem IsEntry.inLine {a : JsString} (h : IsEntry a) : InLine a := ⟨h.oneLine, h.wellFormed⟩

theorem inLine_ascii {s : JsString} (ascii : ∀ u ∈ s, u < 128) (line : 13 ∉ s) : InLine s := by
  constructor
  · induction s with
    | nil => trivial
    | cons u s ih =>
      rw [List.forall_mem_cons] at ascii
      rw [List.mem_cons, not_or] at line
      exact (ih ascii.2 line.2).cons fun same => absurd same.symm line.1
  · have whole := toWellFormed_ascii ascii []
    rwa [List.append_nil, toWellFormed, List.append_nil] at whole

theorem inLine_quoted {t : JsString} (h : InLine t) : InLine (quotedString t) := by
  have quote : InLine [34] := ⟨trivial, rfl⟩
  have inside : OneLine (escape t ++ [34]) := h.oneLine.escape.append quote.oneLine (by simp)
  refine ⟨inside.cons fun same => absurd same (by decide), ?_⟩
  rw [quotedString, toWellFormed_cons (by decide) (by decide), toWellFormed_append _ _ (by decide),
    escape_wellFormed h.wellFormed]
  rfl

theorem inLine_header (text : JsString) : InLine (literalHeader text) := by
  have digits := isDigits_decimal (byteLength text)
  simp only [isDigits, Bool.and_eq_true, List.all_eq_true] at digits
  have units : ∀ u ∈ literalHeader text, isDigit u = true ∨ u = 123 ∨ u = 125 := by
    intro u hu
    simp only [literalHeader, List.mem_cons, List.mem_append, List.not_mem_nil, or_false] at hu
    rcases hu with rfl | hu | rfl
    · exact .inr (.inl rfl)
    · exact .inl (digits.2 u hu)
    · exact .inr (.inr rfl)
  apply inLine_ascii
  · intro u hu
    rcases units u hu with digit | rfl | rfl
    · simp only [isDigit, Bool.and_eq_true, decide_eq_true_eq, UInt16.le_iff_toNat_le, UInt16.reduceToNat] at digit
      rw [UInt16.lt_iff_toNat_lt]
      simp only [UInt16.reduceToNat]
      omega
    · decide
    · decide
  · intro inside
    exact absurd (units 13 inside) (by decide)

mutual

theorem entries_inLine (x : FetchItem) (h : x.Deliverable) {behind : JsString × List (JsString × JsString)}
    (entry : IsEntry behind.1) (rest : ∀ p ∈ behind.2, Transferable p) :
    InLine (x.entries behind).1 ∧ ∀ p ∈ (x.entries behind).2, Transferable p := by
  cases x with
  | nil =>
    have word : InLine (js "NIL") := inLine_ascii (forall_of_all (by decide)) (by decide)
    exact ⟨word.append entry, rest⟩
  | atom text => exact ⟨InLine.append h entry, rest⟩
  | quoted text => exact ⟨(inLine_quoted h).append entry, rest⟩
  | literal text =>
    refine ⟨inLine_header text, ?_⟩
    intro p hp
    rcases List.mem_cons.mp hp with rfl | hp
    · exact ⟨h.1, h.2, entry⟩
    · exact rest p hp
  | list items =>
    have close : IsEntry (41 :: behind.1) := entry.inLine.entry (.inr rfl)
    obtain ⟨inside, all⟩ := allEntries_inLine items h (show IsEntry (41 :: behind.1, behind.2).1 from close) rest
    refine ⟨⟨inside.oneLine.cons fun same => absurd same (by decide), ?_⟩, all⟩
    show toWellFormed (40 :: _) = 40 :: _
    rw [toWellFormed_cons (by decide) (by decide), inside.wellFormed]

theorem allEntries_inLine (xs : List FetchItem) (h : AllDeliverable xs) {behind : JsString × List (JsString × JsString)}
    (entry : IsEntry behind.1) (rest : ∀ p ∈ behind.2, Transferable p) :
    InLine (allEntries behind xs).1 ∧ ∀ p ∈ (allEntries behind xs).2, Transferable p := by
  match xs, h with
  | [], _ => exact ⟨entry.inLine, rest⟩
  | [x], h => exact entries_inLine x h.1 entry rest
  | x :: y :: xs, h =>
    obtain ⟨inside, all⟩ := allEntries_inLine (y :: xs) h.2 entry rest
    have next : IsEntry (32 :: (allEntries behind (y :: xs)).1, (allEntries behind (y :: xs)).2).1 := inside.entry (.inl rfl)
    exact entries_inLine x h.1 next all

end

end

/-- An untagged FETCH response. -/
structure FetchResponse where
  sequence : Nat
  items : List FetchItem

namespace FetchResponse

def front (r : FetchResponse) : JsString := js "* " ++ decimal r.sequence ++ js " FETCH "

def value (r : FetchResponse) : FetchValue := (FetchItem.list r.items).value

def text (r : FetchResponse) : JsString := r.front ++ (FetchItem.list r.items).render

def entries (r : FetchResponse) : JsString × List (JsString × JsString) :=
  (r.front ++ 40 :: (FetchItem.allEntries ([41], []) r.items).1, (FetchItem.allEntries ([41], []) r.items).2)

/-- The untagged entries, as `command` delivers them. -/
def untagged (r : FetchResponse) : List JsString := r.entries.1 :: r.entries.2.map Prod.snd

def literals (r : FetchResponse) : List JsString := r.entries.2.map Prod.fst

end FetchResponse

section
variable (r : FetchResponse)

theorem response_chain : Chain r.entries.1 r.entries.2 := by
  have close : Chain ([41], ([] : List (JsString × JsString))).1 ([41], []).2 := .last rfl
  have inside := allEntries_chain r.items close
  exact (inside.prepend [40]).prepend r.front

theorem response_inlined : inlined r.entries.1 r.entries.2 = r.text := by
  have inside := allEntries_inlined r.items ([41], [])
  simp only [inlined, List.flatMap_nil, List.append_nil, List.append_assoc] at inside
  simp only [FetchResponse.entries, inlined, FetchResponse.text, FetchItem.render, List.append_assoc, List.cons_append, inside]

theorem joinLiterals_responses (rs : List FetchResponse) :
    joinLiterals (rs.flatMap FetchResponse.untagged) (rs.flatMap FetchResponse.literals) = rs.map FetchResponse.text := by
  induction rs with
  | nil => rfl
  | cons r rs ih =>
    have joined := joinFrom_chain (response_chain r) (rs.flatMap FetchResponse.untagged) (rs.flatMap FetchResponse.literals)
    rw [response_inlined, ih] at joined
    exact joined

variable {r}

theorem front_units : (∀ u ∈ r.front, u < 128) ∧ 13 ∉ r.front ∧ 40 ∉ r.front ∧ r.front.head? = some 42 := by
  have digits := isDigits_decimal r.sequence
  simp only [isDigits, Bool.and_eq_true, List.all_eq_true] at digits
  have units : ∀ u ∈ r.front, isDigit u = true ∨ u ∈ js "* FETCH " := by
    intro u hu
    simp only [FetchResponse.front, List.mem_append] at hu
    rcases hu with (hu | hu) | hu
    · exact .inr ((show ∀ v ∈ js "* ", v ∈ js "* FETCH " from forall_of_all (by decide)) u hu)
    · exact .inl (digits.2 u hu)
    · exact .inr ((show ∀ v ∈ js " FETCH ", v ∈ js "* FETCH " from forall_of_all (by decide)) u hu)
  refine ⟨?_, fun inside => absurd (units 13 inside) (by decide), fun inside => absurd (units 40 inside) (by decide), rfl⟩
  intro u hu
  rcases units u hu with digit | word
  · simp only [isDigit, Bool.and_eq_true, decide_eq_true_eq, UInt16.le_iff_toNat_le, UInt16.reduceToNat] at digit
    rw [UInt16.lt_iff_toNat_lt]
    simp only [UInt16.reduceToNat]
    omega
  · exact (show ∀ v ∈ js "* FETCH ", v < 128 from forall_of_all (by decide)) u word

/-- The lines of a response are delivered as its entries. -/
theorem feed_response (h : FetchItem.AllDeliverable r.items) (n : Nat) (untagged literals : List JsString) (more : JsString) :
    (linesFrom [] (r.text ++ crlf ++ more)).foldl (Reply.feed (tagOf n)) (.reading ⟨untagged, literals, .line⟩) =
      (linesFrom [] more).foldl (Reply.feed (tagOf n))
        (.reading ⟨untagged ++ r.untagged, literals ++ r.literals, .line⟩) := by
  obtain ⟨ascii, line, _, star⟩ := @front_units r
  have close : IsEntry ([41], ([] : List (JsString × JsString))).1 := by
    exact ⟨trivial, rfl, .inr rfl⟩
  obtain ⟨inside, transferable⟩ := allEntries_inLine r.items h close (by simp)
  have first : OneLine r.entries.1 := by
    have opened : OneLine (40 :: (FetchItem.allEntries ([41], []) r.items).1) :=
      inside.oneLine.cons fun same => absurd same (by decide)
    exact (inLine_ascii ascii line).oneLine.append opened (by simp)
  have untaggedLine : startsWith r.entries.1 (tagOf n ++ js " ") = false := by
    obtain ⟨rest, shape⟩ := List.head?_eq_some_iff.mp star
    have begin' : r.entries.1 = 42 :: (rest ++ 40 :: (FetchItem.allEntries ([41], []) r.items).1) := by
      rw [FetchResponse.entries, shape]
      rfl
    rw [begin']
    exact startsWith_cons_ne (by decide) _ _
  have wire : r.text ++ crlf ++ more = r.entries.1 ++ (crlf ++
      ((r.entries.2.flatMap fun p => p.1 ++ (p.2 ++ crlf)) ++ more)) := by
    rw [← response_inlined, wire_eq]
    simp
  have fed : Session.feed (tagOf n) ⟨untagged, literals, .line⟩ r.entries.1 =
      Session.next ⟨untagged ++ [r.entries.1], literals, .line⟩ r.entries.1 := by
    simp only [Session.feed, untaggedLine, Bool.false_eq_true, if_false]
  rw [wire, linesFrom_line first, List.foldl_cons, Reply.feed, List.nil_append, fed,
    feed_chain (response_chain r) transferable]
  simp [FetchResponse.untagged, FetchResponse.literals]

/-- What the server answers: the responses, and the line with the tag. -/
def answer (n : Nat) (rs : List FetchResponse) (words : JsString) : JsString :=
  rs.flatMap (fun r => r.text ++ crlf) ++ (tagOf n ++ js " OK " ++ words ++ crlf)

theorem tagOf_inLine (n : Nat) : InLine (tagOf n) := by
  have digits := isDigits_decimal n
  simp only [isDigits, Bool.and_eq_true, List.all_eq_true] at digits
  have units : ∀ u ∈ tagOf n, isAlnum u = true := by
    intro u hu
    simp only [tagOf, List.mem_cons, List.mem_append, List.mem_replicate] at hu
    rcases hu with rfl | ⟨_, rfl⟩ | hu
    · decide
    · decide
    · simp [isAlnum, digits.2 u hu]
  apply inLine_ascii
  · exact fun u hu => isAlnum_ascii u (units u hu)
  · exact fun inside => absurd (units 13 inside) (by decide)

theorem feed_done (n : Nat) {words : JsString} (h : OneLine words) (untagged literals : List JsString) :
    (linesFrom [] (tagOf n ++ js " OK " ++ words ++ crlf)).foldl (Reply.feed (tagOf n))
      (.reading ⟨untagged, literals, .line⟩) = .answered untagged literals := by
  have words' : js " OK " ++ words = 32 :: 79 :: 75 :: 32 :: words := rfl
  have status : OneLine (js " OK " ++ words) := by
    rw [words']
    have blank : OneLine (32 :: words) := h.cons fun same => absurd same (by decide)
    exact ⟨by decide, by decide, by decide, blank⟩
  have line : OneLine (tagOf n ++ (js " OK " ++ words)) := (tagOf_inLine n).oneLine.append status (by simp [words'])
  have lines : linesFrom [] (tagOf n ++ js " OK " ++ words ++ crlf) = [tagOf n ++ (js " OK " ++ words)] := by
    have one : linesFrom [] (tagOf n ++ (js " OK " ++ words) ++ (crlf ++ [])) =
        [] ++ (tagOf n ++ (js " OK " ++ words)) :: linesFrom [] [] := linesFrom_line line
    rw [List.append_nil, List.nil_append] at one
    rw [List.append_assoc (tagOf n), one, linesFrom]
  have tagged : startsWith (tagOf n ++ (js " OK " ++ words)) (tagOf n ++ js " ") = true := by
    rw [startsWith, List.isPrefixOf_iff_prefix]
    refine ⟨js "OK " ++ words, ?_⟩
    rw [List.append_assoc]
    rfl
  have rest : (tagOf n ++ (js " OK " ++ words)).drop ((tagOf n).length + 1) = js "OK " ++ words := by
    rw [← List.drop_drop, List.drop_left]
    rfl
  have word : (split (js "OK " ++ words) 32).headD [] = js "OK" := by
    have parts := List.splitOn_append_cons_self_of_not_mem (show (32 : UInt16) ∉ js "OK" by decide) words
    rw [split]
    have shape : js "OK " ++ words = js "OK" ++ 32 :: words := by rfl
    rw [shape, parts]
    rfl
  rw [lines, List.foldl_cons, List.foldl_nil, Reply.feed, Session.feed]
  dsimp only
  rw [if_pos tagged, rest, word, if_pos rfl]

/-- The answer to a FETCH is delivered as the entries of its responses. -/
theorem command_responses {rs : List FetchResponse} (h : ∀ r ∈ rs, FetchItem.AllDeliverable r.items) (n : Nat)
    {words : JsString} (line : OneLine words) : command (tagOf n) (linesFrom [] (answer n rs words)) =
      .answered (rs.flatMap FetchResponse.untagged) (rs.flatMap FetchResponse.literals) := by
  have all (untagged literals : List JsString) : (linesFrom [] (answer n rs words)).foldl (Reply.feed (tagOf n))
      (.reading ⟨untagged, literals, .line⟩) =
        .answered (untagged ++ rs.flatMap FetchResponse.untagged) (literals ++ rs.flatMap FetchResponse.literals) := by
    induction rs generalizing untagged literals with
    | nil =>
      simp only [answer, List.flatMap_nil, List.nil_append, List.append_nil]
      exact feed_done n line untagged literals
    | cons r rs ih =>
      rw [List.forall_mem_cons] at h
      have wire : answer n (r :: rs) words = r.text ++ crlf ++ answer n rs words := by simp [answer]
      rw [wire, feed_response h.1, ih h.2]
      simp
  exact all [] []

/-- What a server renders is what `parseFetchList` reads: the entries and the
literals of a response are joined to its text, and that is read as its items.
Where quoted strings and atoms stay in their line, and no literal is too large,
those entries and literals are what `command` delivers. -/
theorem fetch_undoes_rendering (host : Host) :
    (∀ r : FetchResponse, FetchItem.AllRenderable host r.items → joinLiterals r.untagged r.literals = [r.text] ∧
      ∃ n, ∀ m, n ≤ m → parseFetchList host r.text m = some (.ok r.value)) ∧
    ∀ (n : Nat) (rs : List FetchResponse) (words : JsString), (∀ r ∈ rs, FetchItem.AllDeliverable r.items) →
      OneLine words → ∃ untagged literals, command (tagOf n) (linesFrom [] (answer n rs words)) =
        .answered untagged literals ∧ untagged = rs.flatMap FetchResponse.untagged ∧
        literals = rs.flatMap FetchResponse.literals ∧ joinLiterals untagged literals = rs.map FetchResponse.text := by
  constructor
  · intro r renderable
    have joined := joinLiterals_responses [r]
    simp only [List.flatMap_singleton, List.map_singleton] at joined
    obtain ⟨n, read⟩ := parseFetchList_render renderable (@front_units r).2.2.1 []
    rw [List.append_nil] at read
    exact ⟨joined, n, read⟩
  · intro n rs words deliverable line
    exact ⟨_, _, command_responses deliverable n line, rfl, rfl, joinLiterals_responses rs⟩

end

/-- A subject with quotes, and a name as a literal that looks like the header of one. -/
def sampleResponse : FetchResponse :=
  ⟨7, [.atom (js "UID"), .quoted (js "a \"b\" \\c)"), .list [.nil, .literal (js "é😀 \x7b5\x7d")], .literal []]⟩

theorem fetch_undoes_rendering_sample :
    (joinLiterals sampleResponse.untagged sampleResponse.literals = [sampleResponse.text] ∧
      ∃ n, ∀ m, n ≤ m → parseFetchList asciiHost sampleResponse.text m = some (.ok sampleResponse.value)) ∧
    ∃ untagged literals, command (tagOf 3) (linesFrom [] (answer 3 [sampleResponse, sampleResponse] (js "done"))) =
      .answered untagged literals ∧ untagged = [sampleResponse, sampleResponse].flatMap FetchResponse.untagged ∧
      literals = [sampleResponse, sampleResponse].flatMap FetchResponse.literals ∧
      joinLiterals untagged literals = [sampleResponse, sampleResponse].map FetchResponse.text := by
  have uid : FetchItem.IsAtom asciiHost (js "UID") := ⟨by decide, forall_of_all (by decide), by decide, by decide⟩
  have name : isWellFormed (js "é😀 \x7b5\x7d") = true ∧ byteLength (js "é😀 \x7b5\x7d") < 9007199254740992 := by
    decide
  have none : isWellFormed [] = true ∧ byteLength [] < 9007199254740992 := by decide
  have subject : InLine (js "a \"b\" \\c)") := inLine_ascii (forall_of_all (by decide)) (by decide)
  have deliverable : FetchItem.AllDeliverable sampleResponse.items :=
    ⟨inLine_ascii (forall_of_all (by decide)) (by decide), subject, ⟨trivial, ⟨by decide, by decide⟩, trivial⟩,
      ⟨by decide, by decide⟩, trivial⟩
  refine ⟨(fetch_undoes_rendering asciiHost).1 sampleResponse
    ⟨uid, trivial, ⟨trivial, name, trivial⟩, none, trivial⟩, ?_⟩
  apply (fetch_undoes_rendering asciiHost).2
  · intro r hr
    simp only [List.mem_cons, List.not_mem_nil, or_false, or_self] at hr
    exact hr ▸ deliverable
  · exact (inLine_ascii (forall_of_all (by decide)) (by decide)).oneLine

/-- Upper-casing makes an I of a dotless one. -/
def dotlessHost : Host :=
  { asciiHost with
    toUpperCase := fun s => s.map fun u => if u = 0x131 then 73 else asciiUpper u
    toUpperCase_nil := rfl
    toUpperCase_ascii := by
      intro u s ascii
      rw [List.map_cons, if_neg]
      rintro rfl
      exact absurd ascii (by decide) }

theorem parse_dotless (n : Nat) : parseFetchList dotlessHost (FetchResponse.text ⟨1, [.atom (js "nıl")]⟩) (n + 2) =
    some (.ok (.list [.null])) := by
  rfl

/-- An atom that is not NIL in any case of its letters may be upper-cased to it. -/
theorem dotless_atom_is_null : ¬ ∀ (host : Host) (text : JsString), text ≠ [] → (∀ u ∈ text, isAtomUnit u = true) →
    text.head? ≠ some 34 → text.head? ≠ some 123 → isWellFormed text = true → text.map asciiUpper ≠ js "NIL" →
    ∃ n, ∀ m, n ≤ m → parseFetchList host (FetchResponse.text ⟨1, [.atom text]⟩) m =
      some (.ok (FetchResponse.value ⟨1, [.atom text]⟩)) := by
  intro h
  obtain ⟨n, read⟩ := h dotlessHost (js "nıl") (by decide) (forall_of_all (by decide)) (by decide) (by decide) (by decide) (by decide)
  have null := (parse_dotless n).symm.trans (read (n + 2) (Nat.le_add_right n 2))
  cases null

end GuloGulo.Mail.Imap
