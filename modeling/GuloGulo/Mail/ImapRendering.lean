import GuloGulo.Mail.ImapFetch
import GuloGulo.Js.Number
import GuloGulo.Js.Lines

/-!
# Reading back a rendered list

A FETCH response as a server writes it: nested lists, with each string quoted
or as a literal after its length in bytes. `parseFetchList` reads one value for
each, and stands behind what was rendered of it.
-/

namespace GuloGulo.Mail.Imap
open Js

/-- `quotedString`, without its quotes. -/
def escape (value : JsString) : JsString := value.flatMap fun u => if u = 92 ∨ u = 34 then [92, u] else [u]

def quotedString (value : JsString) : JsString := 34 :: (escape value ++ [34])

/-- What a list may hold, and how a string of it is written. -/
inductive FetchItem where
  | nil
  | atom (text : JsString)
  | quoted (text : JsString)
  | literal (text : JsString)
  | list (items : List FetchItem)

/-- What stands before a literal, its line end aside. -/
def literalHeader (text : JsString) : JsString := 123 :: (decimal (byteLength text) ++ [125])

namespace FetchItem

mutual

def value : FetchItem → FetchValue
  | nil => .null
  | atom text | quoted text | literal text => .atom text
  | list items => .list (values items)

def values : List FetchItem → List FetchValue
  | [] => []
  | item :: items => value item :: values items

end

mutual

/-- The text of an item, with its literals in place. -/
def render : FetchItem → JsString
  | nil => js "NIL"
  | atom text => text
  | quoted text => quotedString text
  | literal text => literalHeader text ++ crlf ++ text
  | list items => 40 :: (renderAll items ++ [41])

/-- Elements with single spaces in between. -/
def renderAll : List FetchItem → JsString
  | [] => []
  | [item] => render item
  | item :: items => render item ++ 32 :: renderAll items

end

/-- An atom is read as one. -/
structure IsAtom (host : Host) (text : JsString) : Prop where
  nonempty : text ≠ []
  units : ∀ u ∈ text, isAtomUnit u = true
  first : text.head? ≠ some 34 ∧ text.head? ≠ some 123
  some' : host.toUpperCase text ≠ js "NIL"

mutual

/-- Atoms are read as such; literals are well-formed, and of a length that a
number holds. -/
def Renderable (host : Host) : FetchItem → Prop
  | nil | quoted _ => True
  | atom text => IsAtom host text
  | literal text => isWellFormed text = true ∧ byteLength text < 9007199254740992
  | list items => AllRenderable host items

def AllRenderable (host : Host) : List FetchItem → Prop
  | [] => True
  | item :: items => Renderable host item ∧ AllRenderable host items

end

end FetchItem

section
variable (host : Host) (text : JsString)

/-- From one parser to another in some turns. -/
def Leads (s s' : Parser) : Prop := ∃ k, ∀ n, turns host text (k + n) s = turns host text n s'

variable {host text} {s s' s'' : Parser}

theorem Leads.refl (s : Parser) : Leads host text s s := ⟨0, fun n => by rw [Nat.zero_add]⟩

theorem Leads.trans (first : Leads host text s s') (second : Leads host text s' s'') : Leads host text s s'' := by
  obtain ⟨k, first⟩ := first
  obtain ⟨l, second⟩ := second
  refine ⟨k + l, ?_⟩
  intro n
  rw [Nat.add_assoc, first, second]

theorem Leads.turn (goes : turn host text s = .goes s') : Leads host text s s' := by
  refine ⟨1, ?_⟩
  intro n
  rw [Nat.add_comm, turns, goes]

end

theorem quoted_escape (value back : JsString) :
    quoted (escape value ++ 34 :: back) = (value, (escape value).length) := by
  induction value with
  | nil =>
    cases back with
    | nil => rfl
    | cons v back => simp [escape, quoted]
  | cons u value ih =>
    have shape : escape (u :: value) = (if u = 92 ∨ u = 34 then [92, u] else [u]) ++ escape value := rfl
    by_cases special : u = 92 ∨ u = 34
    · rw [shape, if_pos special]
      simp only [List.cons_append, List.nil_append, quoted, ih, List.length_cons]
      rw [if_neg (by decide), if_pos trivial, Nat.add_comm]
    · rw [not_or] at special
      have plain : ¬ (u = 92 ∨ u = 34) := not_or.mpr special
      rw [shape, if_neg plain]
      obtain ⟨v, rest, next⟩ : ∃ v rest, escape value ++ 34 :: back = v :: rest := by
        cases h : escape value ++ 34 :: back with
        | nil => simp at h
        | cons v rest => exact ⟨v, rest, rfl⟩
      simp only [List.cons_append, List.nil_append, List.length_cons]
      rw [next, quoted, if_neg special.2, if_neg special.1, ← next, ih, Nat.add_comm]

theorem le_finite {n m : Nat} : (Number.finite n).le m = decide (n ≤ m) := by
  simp only [Number.le]
  exact decide_eq_decide.mpr Rat.natCast_le_natCast

attribute [local simp] indexForBytes in
theorem indexForBytes_done (bytes : Nat) (back : JsString) : indexForBytes (.finite bytes) bytes back = 0 := by
  have enough : (Number.finite bytes).le bytes = true := by
    rw [le_finite]
    exact decide_eq_true (Nat.le_refl bytes)
  cases back with
  | nil => rfl
  | cons u back =>
    cases back with
    | nil => rw [indexForBytes, if_pos enough]
    | cons v back => rw [indexForBytes, if_pos enough]

theorem indexForBytes_more {count bytes : Nat} (h : bytes < count) : ¬ (Number.finite count).le bytes = true := by
  rw [le_finite, decide_eq_true_eq]
  omega

theorem byteLength_pos (u : UInt16) (rest : JsString) : 0 < byteLength (u :: rest) := by
  have bmp (n : Nat) : 0 < (utf8Bmp n).length := by
    unfold utf8Bmp
    split
    · exact Nat.zero_lt_one
    · split <;> exact Nat.zero_lt_succ _
  have mark : 0 < replacement.length := by decide
  unfold byteLength
  cases rest with
  | nil =>
    rw [utf8]
    split
    · exact mark
    · exact bmp _
  | cons v rest =>
    rw [utf8]
    split
    · split
      · exact Nat.zero_lt_succ _
      · rw [List.length_append]
        omega
    · split
      · rw [List.length_append]
        omega
      · rw [List.length_append]
        have := bmp u.toNat
        omega

theorem indexForBytes_plain {count bytes : Nat} {u : UInt16} (plain : isHighSurrogate u = false) (h : bytes < count)
    (rest : JsString) : indexForBytes (.finite count) bytes (u :: rest) =
      1 + indexForBytes (.finite count) (bytes + byteLength [u]) rest := by
  cases rest with
  | nil =>
    have last : indexForBytes (.finite count) bytes [u] = 1 := by rw [indexForBytes, if_neg (indexForBytes_more h)]
    rw [last, indexForBytes]
  | cons v rest => rw [indexForBytes, if_neg (indexForBytes_more h), if_neg (by simp [plain])]

/-- The characters of a well-formed text hold all its bytes. -/
theorem indexForBytes_text {text : JsString} (h : toWellFormed text = text) (back : JsString) {count : Nat}
    (bytes : Nat) (total : count = bytes + byteLength text) :
    indexForBytes (.finite count) bytes (text ++ back) = text.length := by
  induction text using toWellFormed.induct generalizing bytes with
  | case1 =>
    rw [total]
    exact indexForBytes_done _ back
  | case2 u lone =>
    rw [toWellFormed, if_pos lone] at h
    rw [← (List.cons.inj h).1] at lone
    exact absurd lone (by decide)
  | case3 u plain =>
    have high : isHighSurrogate u = false := by
      simp only [Bool.not_eq_true, Bool.or_eq_false_iff] at plain
      exact plain.1
    have positive := byteLength_pos u []
    rw [List.singleton_append, indexForBytes_plain high (by omega), total, indexForBytes_done]
    rfl
  | case4 u v rest high low ih =>
    rw [toWellFormed, if_pos high, if_pos low] at h
    have more : toWellFormed rest = rest := (List.cons.inj (List.cons.inj h).2).2
    have bytesOf : byteLength (u :: v :: rest) = byteLength [u, v] + byteLength rest := by
      simp [byteLength, utf8, high, low]
    have positive := byteLength_pos u [v]
    have next := ih more (bytes + byteLength [u, v]) (by omega)
    simp only [List.cons_append] at next ⊢
    rw [indexForBytes, if_neg (indexForBytes_more (by omega)), if_pos (by simp [high, low]), next]
    simp only [List.length_cons]
    omega
  | case5 u v rest high low ih =>
    rw [toWellFormed, if_pos high, if_neg low] at h
    rw [← (List.cons.inj h).1] at high
    exact absurd high (by decide)
  | case6 u v rest high low ih =>
    rw [toWellFormed, if_neg high, if_pos low] at h
    rw [← (List.cons.inj h).1] at low
    exact absurd low (by decide)
  | case7 u v rest high low ih =>
    rw [toWellFormed, if_neg high, if_neg low] at h
    have bytesOf : byteLength (u :: v :: rest) = byteLength [u] + byteLength (v :: rest) := by
      simp [byteLength, utf8, high, low]
    have positive := byteLength_pos u []
    have next := ih (List.cons.inj h).2 (bytes + byteLength [u]) (by omega)
    rw [List.cons_append, indexForBytes_plain (by simpa using high) (by omega), next]
    simp only [List.length_cons]
    omega

section
variable {host : Host} {text : JsString} {pos : Nat} {blanks back : JsString} {s : Parser}

/-- Behind the blanks stands the element. -/
theorem skipSpaces_eq {u : UInt16} {rest : JsString} (here : text.drop pos = blanks ++ u :: rest)
    (blank : ∀ v ∈ blanks, v = 32) (other : u ≠ 32) : skipSpaces text pos = pos + blanks.length := by
  have spaces : (blanks ++ u :: rest).takeWhile (· == 32) = blanks := by
    rw [List.takeWhile_append_of_pos]
    · rw [List.takeWhile_cons, if_neg (by simpa using other), List.append_nil]
    · intro v hv
      rw [blank v hv]
      rfl
  rw [skipSpaces, here, spaces]

theorem drop_blanks {rest : JsString} (here : text.drop pos = blanks ++ rest) :
    text.drop (pos + blanks.length) = rest := by
  rw [← List.drop_drop, here, List.drop_left]

theorem getElem?_of_drop {u : UInt16} {rest : JsString} (here : text.drop pos = u :: rest) : text[pos]? = some u := by
  rw [← List.head?_drop, here]
  rfl

/-- The turn of an element, at the unit it starts with. -/
theorem turn_element {u : UInt16} {rest : JsString} (here : text.drop s.pos = blanks ++ u :: rest)
    (blank : ∀ v ∈ blanks, v = 32) (other : u ≠ 32) (close : u ≠ 41) :
    turn host text s = element host text s (s.pos + blanks.length) u := by
  unfold turn
  rw [skipSpaces_eq here blank other]
  dsimp only
  rw [getElem?_of_drop (drop_blanks here)]
  exact if_neg close

theorem element_atom {atom : JsString} (h : FetchItem.IsAtom host atom)
    (here : text.drop pos = atom ++ back) (next : ∀ u ∈ back.head?, isAtomUnit u = false) {u : UInt16} {rest : JsString}
    (first : atom = u :: rest) : element host text s pos u = s.push (.atom atom) (pos + atom.length) := by
  have opens : u ≠ 40 := by
    rintro rfl
    have unit := h.units 40 (first ▸ List.mem_cons_self)
    exact absurd unit (by decide)
  have quote : u ≠ 34 := by
    rintro rfl
    exact h.first.1 (by rw [first]; rfl)
  have brace : u ≠ 123 := by
    rintro rfl
    exact h.first.2 (by rw [first]; rfl)
  have whole : (text.drop pos).takeWhile isAtomUnit = atom := by
    rw [here, List.takeWhile_append_of_pos h.units]
    have none : back.takeWhile isAtomUnit = [] := by
      cases back with
      | nil => rfl
      | cons v back => rw [List.takeWhile_cons, if_neg (by simp [next v rfl])]
    rw [none, List.append_nil]
  unfold element
  rw [if_neg opens, if_neg quote, if_neg brace]
  dsimp only
  rw [whole, atomValue, if_neg h.some', if_neg (by simpa using h.nonempty)]

theorem element_nil (here : text.drop pos = js "NIL" ++ back) (next : ∀ u ∈ back.head?, isAtomUnit u = false) :
    element host text s pos 78 = s.push .null (pos + 3) := by
  have whole : (text.drop pos).takeWhile isAtomUnit = js "NIL" := by
    rw [here, List.takeWhile_append_of_pos (forall_of_all (by decide))]
    have none : back.takeWhile isAtomUnit = [] := by
      cases back with
      | nil => rfl
      | cons v back => rw [List.takeWhile_cons, if_neg (by simp [next v rfl])]
    rw [none, List.append_nil]
  have upper : host.toUpperCase (js "NIL") = js "NIL" := toUpperCase_of_ascii (forall_of_all (by decide))
  unfold element
  rw [if_neg (by decide), if_neg (by decide), if_neg (by decide)]
  dsimp only
  rw [whole, atomValue, if_pos upper]
  rfl

theorem element_quoted {value : JsString} (here : text.drop pos = quotedString value ++ back) :
    element host text s pos 34 = s.push (.atom value) (pos + (quotedString value).length) := by
  have inside : text.drop (pos + 1) = escape value ++ 34 :: back := by
    rw [← List.drop_drop, here]
    simp [quotedString]
  unfold element
  rw [if_neg (by decide), if_pos rfl, inside, quoted_escape]
  simp only [quotedString, List.length_cons, List.length_append, List.length_nil]
  rw [Nat.add_assoc pos 1, Nat.add_assoc pos, Nat.add_comm 1]

theorem slice_from {i j : Nat} : slice text (pos + i) (pos + j) = ((text.drop pos).take j).drop i := by
  rw [slice, List.drop_take, List.drop_take, List.drop_drop, Nat.add_sub_add_left]

theorem indexOf_close {digits rest : JsString} (here : text.drop pos = 123 :: (digits ++ 125 :: rest))
    (plain : 125 ∉ digits) : indexOfFrom text 125 pos = some (pos + (digits.length + 1)) := by
  have first : (123 :: (digits ++ 125 :: rest)).findIdx? (· == 125) = some (digits.length + 1) := by
    have none : digits.findIdx? (· == 125) = none := by
      rw [List.findIdx?_eq_none_iff]
      intro u hu
      exact beq_false_of_ne fun same => plain (same ▸ hu)
    rw [List.findIdx?_cons, if_neg (by decide), List.findIdx?_append, none]
    simp [List.findIdx?_cons]
  rw [indexOfFrom, here, first]
  rfl

theorem decimal_no_brace (n : Nat) : 125 ∉ decimal n := by
  have digits := isDigits_decimal n
  simp only [isDigits, Bool.and_eq_true, List.all_eq_true] at digits
  intro inside
  exact absurd (digits.2 125 inside) (by decide)

theorem element_literal {value : JsString} (wellFormed : isWellFormed value = true)
    (short : byteLength value < 9007199254740992)
    (here : text.drop pos = literalHeader value ++ crlf ++ value ++ back) :
    element host text s pos 123 =
      s.push (.atom value) (pos + (literalHeader value ++ crlf ++ value).length) := by
  have shape : text.drop pos = 123 :: (decimal (byteLength value) ++ 125 :: (crlf ++ (value ++ back))) := by
    rw [here]
    simp [literalHeader]
  have close := indexOf_close shape (decimal_no_brace _)
  have start : literalStart text pos = pos + (literalHeader value ++ crlf).length := by
    rw [literalStart, close]
    simp [literalHeader, crlf]
    omega
  have size : literalSize text pos = .finite (byteLength value) := by
    rw [literalSize, close]
    dsimp only
    rw [slice_from, shape]
    have digits : ((123 :: (decimal (byteLength value) ++ 125 :: (crlf ++ (value ++ back)))).take
        ((decimal (byteLength value)).length + 1)).drop 1 = decimal (byteLength value) := by simp
    rw [digits, Number.ofText_decimal short]
  have rest : text.drop (literalStart text pos) = value ++ back := by
    rw [start, ← List.drop_drop, here, List.append_assoc, List.drop_left]
  have stop : literalEnd text pos = pos + (literalHeader value ++ crlf ++ value).length := by
    rw [literalEnd, rest, size, charIndexForBytes,
      indexForBytes_text (toWellFormed_of_isWellFormed wellFormed) back 0 (Nat.zero_add _).symm, start,
      Nat.add_assoc, ← List.length_append]
  have content : slice text (literalStart text pos) (literalEnd text pos) = value := by
    rw [stop, start, slice_from, here, List.take_left, List.drop_left]
  unfold element
  rw [if_neg (by decide), if_neg (by decide), if_pos rfl, content, stop]

theorem drop_rendered {pos : Nat} {front back : JsString} (here : text.drop pos = front ++ back) :
    text.drop (pos + front.length) = back := by
  rw [← List.drop_drop, here, List.drop_left]

/-- A turn that reads one value and stands behind it. -/
theorem leads_push {x : JsString} {value : FetchValue} {u : UInt16} {rest : JsString} (first : x = u :: rest)
    (here : text.drop s.pos = blanks ++ (x ++ back)) (blank : ∀ v ∈ blanks, v = 32) (other : u ≠ 32) (close : u ≠ 41)
    (read : element host text s (s.pos + blanks.length) u = s.push value (s.pos + blanks.length + x.length)) :
    ∃ pos, Leads host text s ⟨pos, s.items ++ [value], s.outer⟩ ∧ text.drop pos = back := by
  refine ⟨s.pos + blanks.length + x.length, ?_, drop_rendered (drop_rendered here)⟩
  apply Leads.turn
  have front : text.drop s.pos = blanks ++ u :: (rest ++ back) := by rw [here, first, List.cons_append]
  rw [turn_element front blank other close, read]
  rfl

/-- A list that has been opened is closed. -/
theorem leads_close {items : List FetchValue} {outer : List (List FetchValue)} {inner : List FetchValue}
    (here : text.drop pos = blanks ++ 41 :: back) (blank : ∀ v ∈ blanks, v = 32) :
    ∃ pos', Leads host text ⟨pos, inner, items :: outer⟩ ⟨pos', items ++ [.list inner], outer⟩ ∧
      text.drop pos' = back := by
  refine ⟨pos + blanks.length + 1, ?_, ?_⟩
  · apply Leads.turn
    unfold turn
    rw [skipSpaces_eq here blank (by decide)]
    dsimp only
    rw [getElem?_of_drop (drop_blanks here)]
    rfl
  · rw [← List.drop_drop, drop_blanks here]
    rfl

end

section
open FetchItem

mutual

/-- One value is read of an item, whatever it is. -/
theorem leads_item {host : Host} {text blanks back : JsString} (x : FetchItem) (h : x.Renderable host) (s : Parser)
    (here : text.drop s.pos = blanks ++ (x.render ++ back)) (blank : ∀ v ∈ blanks, v = 32)
    (next : ∀ u ∈ back.head?, isAtomUnit u = false) :
    ∃ pos, Leads host text s ⟨pos, s.items ++ [x.value], s.outer⟩ ∧ text.drop pos = back := by
  cases x with
  | nil =>
    have front := drop_blanks here
    exact leads_push (x := js "NIL") rfl here blank (by decide) (by decide) (element_nil front next)
  | atom atom =>
    have isAtom : IsAtom host atom := h
    obtain ⟨u, rest, first⟩ := List.exists_cons_of_ne_nil isAtom.nonempty
    have unit := isAtom.units u (first ▸ List.mem_cons_self)
    have apart {v : UInt16} (hv : isAtomUnit v = false) : u ≠ v := by
      rintro rfl
      rw [unit] at hv
      cases hv
    exact leads_push first here blank (apart (by decide)) (apart (by decide))
      (element_atom isAtom (drop_blanks here) next first)
  | quoted value =>
    exact leads_push rfl here blank (by decide) (by decide) (element_quoted (drop_blanks here))
  | literal value =>
    have shape : literalHeader value ++ crlf ++ value = 123 :: (decimal (byteLength value) ++ [125] ++ crlf ++ value) := by
      simp [literalHeader]
    exact leads_push shape here blank (by decide) (by decide) (element_literal h.1 h.2 (drop_blanks here))
  | list items =>
    have front : text.drop s.pos = blanks ++ 40 :: (renderAll items ++ [41] ++ back) := by
      rw [here]
      simp [render]
    have opened : Leads host text s ⟨s.pos + blanks.length + 1, [], s.items :: s.outer⟩ := by
      apply Leads.turn
      rw [turn_element front blank (by decide) (by decide)]
      rfl
    have inside : text.drop (s.pos + blanks.length + 1) = [] ++ (renderAll items ++ 41 :: back) := by
      rw [← List.drop_drop, drop_blanks front]
      simp
    obtain ⟨pos, blanks', read, stands, blank'⟩ :=
      leads_all items h ⟨s.pos + blanks.length + 1, [], s.items :: s.outer⟩ inside (by simp)
    obtain ⟨pos', closed, behind⟩ := leads_close stands blank'
    exact ⟨pos', opened.trans (read.trans closed), behind⟩

/-- The elements of a list are read up to its end. -/
theorem leads_all {host : Host} {text blanks back : JsString} (xs : List FetchItem) (h : AllRenderable host xs) (s : Parser)
    (here : text.drop s.pos = blanks ++ (renderAll xs ++ 41 :: back)) (blank : ∀ v ∈ blanks, v = 32) :
    ∃ pos blanks', Leads host text s ⟨pos, s.items ++ values xs, s.outer⟩ ∧ text.drop pos = blanks' ++ 41 :: back ∧
      ∀ v ∈ blanks', v = 32 := by
  match xs, h with
  | [], _ =>
    refine ⟨s.pos, blanks, ?_, here, blank⟩
    rw [values, List.append_nil]
    exact .refl s
  | [x], h =>
    obtain ⟨pos, read, behind⟩ := leads_item x h.1 s here blank (by simp [isAtomUnit])
    exact ⟨pos, [], read, behind, by simp⟩
  | x :: y :: xs, h =>
    have front : text.drop s.pos = blanks ++ (x.render ++ (32 :: (renderAll (y :: xs) ++ 41 :: back))) := by
      rw [here]
      simp [renderAll]
    obtain ⟨pos, read, behind⟩ := leads_item x h.1 s front blank (by simp [isAtomUnit])
    obtain ⟨pos', blanks', rest, stands, blank'⟩ :=
      leads_all (y :: xs) h.2 ⟨pos, s.items ++ [x.value], s.outer⟩
        (show text.drop pos = [32] ++ (renderAll (y :: xs) ++ 41 :: back) from behind) (by simp)
    refine ⟨pos', blanks', ?_, stands, blank'⟩
    have all : s.items ++ values (x :: y :: xs) = s.items ++ [x.value] ++ values (y :: xs) := by
      simp [values]
    rw [all]
    exact read.trans rest

end

/-- A rendered list is read as what it was rendered of, whatever stands around it. -/
theorem parseFetchList_render {host : Host} {items : List FetchItem} (h : AllRenderable host items) {front : JsString}
    (plain : 40 ∉ front) (back : JsString) : ∃ n, ∀ m, n ≤ m →
      parseFetchList host (front ++ (FetchItem.list items).render ++ back) m = some (.ok (FetchItem.list items).value) := by
  have shape : front ++ (FetchItem.list items).render ++ back = front ++ 40 :: (renderAll items ++ 41 :: back) := by
    simp [render]
  rw [shape]
  have first : indexOfFrom (front ++ 40 :: (renderAll items ++ 41 :: back)) 40 0 = some front.length := by
    have none : front.findIdx? (· == 40) = none := by
      rw [List.findIdx?_eq_none_iff]
      intro u hu
      exact beq_false_of_ne fun same => plain (same ▸ hu)
    simp [indexOfFrom, List.findIdx?_append, none, List.findIdx?_cons]
  have inside : (front ++ 40 :: (renderAll items ++ 41 :: back)).drop (front.length + 1) =
      [] ++ (renderAll items ++ 41 :: back) := by
    rw [← List.drop_drop, List.drop_left]
    rfl
  obtain ⟨pos, blanks, ⟨k, read⟩, stands, blank⟩ := leads_all items h ⟨front.length + 1, [], []⟩ inside (by simp)
  refine ⟨k + 1, ?_⟩
  intro m enough
  obtain ⟨n, rfl⟩ : ∃ n, m = k + (n + 1) := ⟨m - k - 1, by omega⟩
  have last : turn host (front ++ 40 :: (renderAll items ++ 41 :: back)) ⟨pos, [] ++ values items, []⟩ =
      .returns (FetchItem.list items).value := by
    unfold turn
    rw [skipSpaces_eq stands blank (by decide)]
    dsimp only
    rw [getElem?_of_drop (drop_blanks stands)]
    rfl
  rw [parseFetchList, start, first]
  show turns host _ (k + (n + 1)) ⟨front.length + 1, [], []⟩ = _
  rw [read, turns, last]

end

end GuloGulo.Mail.Imap
