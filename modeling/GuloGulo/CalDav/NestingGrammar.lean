import GuloGulo.CalDav.Nesting

/-!
# The nesting grammar

A calendar object is one VCALENDAR with one VEVENT and any number of
VTIMEZONEs; a reader that takes BEGIN and END in either case finds that tree in
the lines. The parser takes only the upper-case forms for boundaries, looks at
a CR only when the text has no CRLF, and has no rule for the children of
STANDARD and DAYLIGHT:

* `content_conforms`: without any of the three, what it reads is the tree;
* `opensInTransition_of_body`, `boundaries_of_content`: with one of them, it is not.
-/

namespace GuloGulo.CalDav
open Js Data

/-- A property line, or a component with what stands between its boundaries. -/
inductive Block where
  | line (text : JsString)
  | component (name : ComponentName) (body : List Block)

def childrenOf (blocks : List Block) : List (ComponentName × List Block) :=
  blocks.filterMap fun
    | .line _ => none
    | .component name body => some (name, body)

/-- The line is the keyword and the name, in either case. -/
def SpellsBoundary (keyword : String) (line : JsString) (name : ComponentName) : Prop :=
  line.map asciiUpper = js keyword ++ name.text

/-- The line starts with BEGIN or END and a colon, in either case. -/
def opensOrCloses (line : JsString) : Bool :=
  startsWith (line.map asciiUpper) (js "BEGIN:") || startsWith (line.map asciiUpper) (js "END:")

/-- The blocks are written on these lines. -/
inductive Body : List Block → List JsString → Prop where
  | nil : Body [] []
  | line {blocks : List Block} {lines : List JsString} {text : JsString} :
      opensOrCloses text = false → Body blocks lines → Body (.line text :: blocks) (text :: lines)
  | component {name : ComponentName} {body blocks : List Block} {inner lines : List JsString} {b e : JsString} :
      SpellsBoundary "BEGIN:" b name → Body body inner → SpellsBoundary "END:" e name → Body blocks lines →
      Body (.component name body :: blocks) (b :: (inner ++ e :: lines))

/-- Which component may stand directly in which. -/
def allowed : ComponentName → ComponentName → Bool
  | .vcalendar, .vevent | .vcalendar, .vtimezone => true
  | .vevent, .valarm => true
  | .vtimezone, .standard | .vtimezone, .daylight => true
  | _, _ => false

inductive Placed : ComponentName → List Block → Prop where
  | mk {name : ComponentName} {blocks : List Block}
      (here : ∀ c ∈ childrenOf blocks, allowed name c.1 = true)
      (below : ∀ c ∈ childrenOf blocks, Placed c.1 c.2) : Placed name blocks

/-- Every CR is followed by LF, and every LF follows a CR. -/
def crlfOnly : JsString → Bool
  | [] => true
  | 13 :: 10 :: rest => crlfOnly rest
  | u :: rest => u != 13 && u != 10 && crlfOnly rest

def isBoundaryName (name : JsString) : Bool := name == js "BEGIN" || name == js "END"

def linesOf (text : JsString) : List JsString := logicalLines (replaceAll text crlf lf)

/-- Every property in the tree satisfies `P`. -/
inductive ICalendarComponent.Forall (P : ICalendarProperty → Prop) : ICalendarComponent → Prop where
  | mk {name : ComponentName} {properties : List ICalendarProperty} {children : List ICalendarComponent}
      (own : ∀ p ∈ properties, P p) (below : ∀ c ∈ children, c.Forall P) :
      (ICalendarComponent.mk name properties children).Forall P

/-- What the canonical form and the tree of an accepted text are to be. -/
structure Conforms (host : Host) (text canonicalText : JsString) : Prop where
  tree : ∃ body, Body [.component .vcalendar body] (linesOf text) ∧ Placed .vcalendar body ∧
    ((childrenOf body).filter fun c => c.1 = .vevent).length = 1
  names : ∃ root, parseLines host (linesOf text) = .ok root ∧ root.Forall fun p => isBoundaryName p.name = false
  endings : crlfOnly canonicalText = true

/-- The name of a content line: what stands before its parameters and its value. -/
def lineName (line : JsString) : JsString := line.takeWhile fun u => u != 58 && u != 59

/-- A line with the name BEGIN or END that the parser does not take for a boundary. -/
def isStray (host : Host) (line : JsString) : Bool :=
  (matchBoundary (js "BEGIN:") line).isNone && (matchBoundary (js "END:") line).isNone &&
    isBoundaryName (host.toUpperCase (lineName line))

def isTransition (name : JsString) : Bool := name == js "STANDARD" || name == js "DAYLIGHT"

/-- A component is opened while a STANDARD or DAYLIGHT is the innermost open one. -/
def opensInTransition (host : Host) : Bool → List JsString → Bool
  | _, [] => false
  | inside, line :: rest =>
    if let some name := matchBoundary (js "BEGIN:") line then
      inside || opensInTransition host (isTransition (host.toUpperCase name)) rest
    else opensInTransition host (inside && (matchBoundary (js "END:") line).isNone) rest

/-- A CR that no LF follows. -/
def hasBareCr : JsString → Bool
  | [] => false
  | 13 :: 10 :: rest => hasBareCr rest
  | u :: rest => u == 13 || hasBareCr rest

structure Regular (host : Host) (text : JsString) : Prop where
  boundaries : ∀ line ∈ linesOf text, isStray host line = false
  transitions : opensInTransition host false (linesOf text) = false
  endings : hasBareCr text = false

section
variable {host : Host} {line keyword text : JsString} {name : ComponentName}

theorem matchBoundary_eq_some (h : matchBoundary keyword line = some text) :
    line = keyword ++ text ∧ ∀ u ∈ text, isAlnum u = true ∨ u = 45 := by
  unfold matchBoundary at h
  split at h
  · rename_i start
    obtain ⟨rest, rfl⟩ := List.isPrefixOf_iff_prefix.mp start
    simp only [List.drop_left] at h
    split at h
    · rename_i units
      cases h
      refine ⟨rfl, ?_⟩
      simpa using (Bool.and_eq_true_iff.mp units).2
    · cases h
  · cases h

theorem boundary_ascii (h : ∀ u ∈ text, isAlnum u = true ∨ u = 45) : ∀ u ∈ text, u < 128 := by
  intro u hu
  rcases h u hu with hu | rfl
  · exact isAlnum_ascii u hu
  · decide

theorem asciiUpper_lt {u : UInt16} (h : asciiUpper u < 128) : u < 128 := by
  unfold asciiUpper at h
  split at h
  · rename_i lower
    simp only [isLower, Bool.and_eq_true, decide_eq_true_eq, UInt16.le_iff_toNat_le, UInt16.reduceToNat] at lower
    simp only [UInt16.lt_iff_toNat_lt, UInt16.reduceToNat]
    omega
  · exact h

/-- A line that starts with a keyword and a colon, in either case, has the keyword as its name. -/
theorem lineName_of_startsWith {word : JsString} (separators : 58 ∉ word ∧ 59 ∉ word) (ascii : ∀ u ∈ word, u < 128)
    (h : startsWith (line.map asciiUpper) (word ++ [58]) = true) : host.toUpperCase (lineName line) = word := by
  unfold lineName
  induction word generalizing line with
  | nil =>
    cases line with
    | nil => cases h
    | cons u line =>
      have colon : asciiUpper u = 58 := by
        rw [startsWith, List.map_cons, List.nil_append, List.isPrefixOf] at h
        exact (eq_of_beq (Bool.and_eq_true_iff.mp h).1).symm
      have same : u = 58 := by
        unfold asciiUpper at colon
        split at colon
        · rename_i lower
          simp only [isLower, Bool.and_eq_true, decide_eq_true_eq, UInt16.le_iff_toNat_le, UInt16.reduceToNat] at lower
          have := congrArg UInt16.toNat colon
          simp only [UInt16.toNat_sub, UInt16.reduceToNat] at this
          omega
        · exact colon
      rw [same, List.takeWhile_cons, if_neg (by decide), host.toUpperCase_nil]
  | cons v word ih =>
    cases line with
    | nil => cases h
    | cons u line =>
      rw [startsWith, List.map_cons, List.cons_append, List.isPrefixOf, Bool.and_eq_true, beq_iff_eq] at h
      rw [List.forall_mem_cons] at ascii
      simp only [List.mem_cons, not_or] at separators
      have plain : u ≠ 58 ∧ u ≠ 59 := by
        constructor
        · rintro rfl
          exact separators.1.1 h.1.symm
        · rintro rfl
          exact separators.2.1 h.1.symm
      have rest := ih ⟨separators.1.2, separators.2.2⟩ ascii.2 h.2
      rw [List.takeWhile_cons, if_pos (by simpa using plain),
        host.toUpperCase_ascii u _ (asciiUpper_lt (h.1 ▸ ascii.1)), rest, h.1]

theorem isStray_of_startsWith {word : String} (boundary : isBoundaryName (js word) = true)
    (h : startsWith (line.map asciiUpper) (js word ++ [58]) = true) (hb : matchBoundary (js "BEGIN:") line = none)
    (he : matchBoundary (js "END:") line = none) : isStray host line = true := by
  have cases_word : js word = js "BEGIN" ∨ js word = js "END" := by simpa [isBoundaryName] using boundary
  have named : host.toUpperCase (lineName line) = js word := by
    apply lineName_of_startsWith _ _ h
    · rcases cases_word with same | same <;> rw [same] <;> decide
    · rcases cases_word with same | same <;> rw [same] <;> exact forall_of_all (by decide)
  simp [isStray, hb, he, named, boundary]

theorem spells_of_matchBoundary {keyword : String} (upper : (js keyword).map asciiUpper = js keyword)
    (h : matchBoundary (js keyword) line = some text) (named : host.toUpperCase text = name.text) :
    SpellsBoundary keyword line name := by
  obtain ⟨rfl, units⟩ := matchBoundary_eq_some h
  have ascii : host.toUpperCase text = text.map asciiUpper := toUpperCase_of_ascii (boundary_ascii units)
  rw [SpellsBoundary, List.map_append, upper, ← ascii, named]

theorem IsBegin.spells (h : IsBegin host line name) : SpellsBoundary "BEGIN:" line name := by
  obtain ⟨text, matched, named⟩ := h
  exact spells_of_matchBoundary (by decide) matched named

theorem IsEnd.spells (h : IsEnd host line name) : SpellsBoundary "END:" line name := by
  obtain ⟨_, text, matched, named⟩ := h
  exact spells_of_matchBoundary (by decide) matched named

theorem cut_of_lineName {a b : JsString} (h : 58 ∉ a) : lineName (a ++ 58 :: b) = (split a 59).headD [] := by
  unfold lineName split
  induction a with
  | nil => rfl
  | cons u a ih =>
    simp only [List.mem_cons, not_or] at h
    rw [List.splitOn_cons_eq_if_modifyHead, List.cons_append, List.takeWhile_cons]
    by_cases semicolon : u = 59
    · subst semicolon
      simp
    · have colon : u ≠ 58 := Ne.symm h.1
      have plain : (u == 59) = false := beq_false_of_ne semicolon
      rw [if_pos (by simp [semicolon, colon]), ih h.2, plain]
      cases hs : List.splitOn 59 a with
      | nil => exact absurd hs (List.splitOn_ne_nil 59 a)
      | cons first others => rfl

theorem parseProperty_name {p : ICalendarProperty} (h : parseProperty host line = .ok p) :
    p.name = host.toUpperCase (lineName line) := by
  unfold parseProperty at h
  split at h
  · rename_i head value found
    obtain ⟨_, _, h⟩ := bind_eq_ok.mp h
    obtain ⟨_, _, h⟩ := bind_eq_ok.mp h
    obtain ⟨_, _, h⟩ := bind_eq_ok.mp h
    cases h
    rw [cut_eq_some found, cut_of_lineName (not_mem_of_cut found)]
  · cases h

theorem isStray_property {p : ICalendarProperty} (property : IsProperty line) (h : parseProperty host line = .ok p) :
    isStray host line = isBoundaryName p.name := by
  rw [isStray, property.1, property.2, parseProperty_name h]
  rfl

theorem not_opensOrCloses (property : IsProperty line) (regular : isStray host line = false) :
    opensOrCloses line = false := by
  have apart {word : String} (boundary : isBoundaryName (js word) = true) :
      startsWith (line.map asciiUpper) (js word ++ [58]) = false := by
    rw [Bool.eq_false_iff]
    intro h
    have stray : isStray host line = true := isStray_of_startsWith boundary h property.1 property.2
    rw [regular] at stray
    cases stray
  have opens : startsWith (line.map asciiUpper) (js "BEGIN" ++ [58]) = false := apart rfl
  have closes : startsWith (line.map asciiUpper) (js "END" ++ [58]) = false := apart rfl
  have begins : js "BEGIN:" = js "BEGIN" ++ [58] := rfl
  have ends : js "END:" = js "END" ++ [58] := rfl
  rw [opensOrCloses, begins, ends, opens, closes]
  rfl

/-- The lines of a component are not stray just when no property of it, or of
one below it, has the name of a boundary. -/
theorem boundaries_of_content {c : ICalendarComponent} {lines : List JsString} (h : Content host c lines) :
    (∀ line ∈ lines, isStray host line = false) ↔ c.Forall fun p => isBoundaryName p.name = false := by
  induction h with
  | opened name => exact ⟨fun _ => .mk (by simp) (by simp), fun _ => by simp⟩
  | @property c lines line p content property parsed ih =>
    rw [List.forall_mem_append, ih, List.forall_mem_singleton, isStray_property property parsed]
    constructor
    · rintro ⟨own, last⟩
      cases own with
      | mk own below =>
        refine .mk ?_ below
        intro q hq
        rcases List.mem_append.mp hq with hq | hq
        · exact own q hq
        · rw [List.mem_singleton.mp hq]
          exact last
    · rintro all
      cases c
      cases all with
      | mk own below =>
        exact ⟨.mk (fun q hq => own q (List.mem_append_left _ hq)) below, own p (by simp)⟩
  | @child c d lines inner b e content placed opened body closes ih ihd =>
    have opens : isStray host b = false := by
      obtain ⟨text, matched, _⟩ := opened
      simp [isStray, matched]
    have ends : isStray host e = false := by
      obtain ⟨_, text, matched, _⟩ := closes
      simp [isStray, matched]
    rw [List.forall_mem_append, ih, List.forall_mem_append, List.forall_mem_cons, ihd, List.forall_mem_singleton]
    constructor
    · rintro ⟨own, ⟨_, inside⟩, _⟩
      cases own with
      | mk own below =>
        refine .mk own ?_
        intro q hq
        rcases List.mem_append.mp hq with hq | hq
        · exact below q hq
        · rw [List.mem_singleton.mp hq]
          exact inside
    · intro all
      cases c
      cases all with
      | mk own below =>
        exact ⟨.mk own (fun q hq => below q (List.mem_append_left _ hq)), ⟨opens, below d (by simp)⟩, ends⟩

theorem Body.append {blocks more : List Block} {lines tail : List JsString} (h : Body blocks lines)
    (t : Body more tail) : Body (blocks ++ more) (lines ++ tail) := by
  induction h with
  | nil => exact t
  | line plain _ ih => exact .line plain ih
  | component opened body closed _ _ ih =>
    rw [List.cons_append, List.cons_append, List.append_assoc, List.cons_append]
    exact .component opened body closed ih

theorem childrenOf_append (blocks more : List Block) :
    childrenOf (blocks ++ more) = childrenOf blocks ++ childrenOf more := List.filterMap_append

section
variable {rest : List JsString} {inside : Bool}

attribute [local simp] opensInTransition in
theorem opensInTransition_begin (h : IsBegin host line name) : opensInTransition host inside (line :: rest) =
    (inside || opensInTransition host (isTransition name.text) rest) := by
  obtain ⟨text, matched, named⟩ := h
  rw [opensInTransition, matched]
  simp only [named]

theorem opensInTransition_end (h : IsEnd host line name) :
    opensInTransition host inside (line :: rest) = opensInTransition host false rest := by
  obtain ⟨opened, text, matched, _⟩ := h
  rw [opensInTransition, opened, matched]
  simp

theorem opensInTransition_property (h : IsProperty line) :
    opensInTransition host inside (line :: rest) = opensInTransition host inside rest := by
  rw [opensInTransition, h.1, h.2]
  simp

end

/-- The rules of the parser are the grammar's, but for the two it has no rule for. -/
theorem allowed_of_assertChild {parent child : ComponentName} (h : assertChild parent child = .ok ())
    (other : isTransition parent.text = false) : allowed parent child = true := by
  revert h other
  cases parent <;> cases child <;> decide

/-- Outside STANDARD and DAYLIGHT, what a component reads is its tree. -/
theorem content_conforms {c : ICalendarComponent} {lines : List JsString} (h : Content host c lines)
    (regular : ∀ line ∈ lines, isStray host line = false) {rest : List JsString}
    (scan : opensInTransition host (isTransition c.name.text) (lines ++ rest) = false) :
    opensInTransition host (isTransition c.name.text) rest = false ∧
      ∃ blocks, Body blocks lines ∧ (childrenOf blocks).map Prod.fst = c.children.map (·.name) ∧
        Placed c.name blocks := by
  induction h generalizing rest with
  | opened name => exact ⟨scan, [], .nil, rfl, .mk nofun nofun⟩
  | @property c lines line p content property parsed ih =>
    rw [List.forall_mem_append, List.forall_mem_singleton] at regular
    rw [List.append_assoc] at scan
    obtain ⟨after, blocks, body, children, placed⟩ := ih regular.1 scan
    rw [List.singleton_append, opensInTransition_property property] at after
    have same : childrenOf (blocks ++ [.line line]) = childrenOf blocks := by
      rw [childrenOf_append]
      exact List.append_nil _
    refine ⟨after, blocks ++ [.line line], body.append (.line (not_opensOrCloses property regular.2) .nil), ?_, ?_⟩
    · rw [same]
      exact children
    · cases placed with
      | mk here below => exact .mk (same ▸ here) (same ▸ below)
  | @child c d lines inner b e content assert opened body closes ih ihd =>
    rw [List.forall_mem_append, List.forall_mem_append, List.forall_mem_cons] at regular
    obtain ⟨own, ⟨_, within⟩, _⟩ := regular
    rw [List.append_assoc, List.append_assoc] at scan
    obtain ⟨after, blocks, written, children, placed⟩ := ih own scan
    rw [List.cons_append, List.singleton_append, opensInTransition_begin opened, Bool.or_eq_false_iff] at after
    obtain ⟨afterInner, innerBlocks, innerWritten, _, innerPlaced⟩ := ihd within after.2
    rw [opensInTransition_end closes] at afterInner
    refine ⟨?_, blocks ++ [.component d.name innerBlocks], ?_, ?_, ?_⟩
    · rw [name_addChild, after.1]
      exact afterInner
    · exact written.append (.component opened.spells innerWritten closes.spells .nil)
    · have grown : (c.addChild d).children = c.children ++ [d] := rfl
      rw [childrenOf_append, List.map_append, children, grown, List.map_append]
      rfl
    · have all : childrenOf (blocks ++ [.component d.name innerBlocks]) =
          childrenOf blocks ++ [(d.name, innerBlocks)] := childrenOf_append _ _
      cases placed with
      | mk here below =>
        apply Placed.mk
        · rw [all, List.forall_mem_append, List.forall_mem_singleton]
          exact ⟨here, allowed_of_assertChild assert after.1⟩
        · rw [all, List.forall_mem_append, List.forall_mem_singleton]
          exact ⟨below, innerPlaced⟩

theorem matchBoundary_none {keyword : String} (upper : (js keyword).map asciiUpper = js keyword)
    (h : startsWith (line.map asciiUpper) (js keyword) = false) : matchBoundary (js keyword) line = none := by
  cases found : matchBoundary (js keyword) line with
  | none => rfl
  | some text =>
    obtain ⟨rfl, _⟩ := matchBoundary_eq_some found
    rw [List.map_append, upper, startsWith, List.isPrefixOf_iff_prefix.mpr (List.prefix_append _ _)] at h
    cases h

theorem isProperty_of_plain (h : opensOrCloses line = false) : IsProperty line := by
  rw [opensOrCloses, Bool.or_eq_false_iff] at h
  exact ⟨matchBoundary_none (by decide) h.1, matchBoundary_none (by decide) h.2⟩

theorem named_of_spells {keyword : String} (upper : (js keyword).map asciiUpper = js keyword)
    (h : SpellsBoundary keyword line name) (matched : matchBoundary (js keyword) line = some text) :
    host.toUpperCase text = name.text := by
  obtain ⟨rfl, units⟩ := matchBoundary_eq_some matched
  rw [SpellsBoundary, List.map_append, upper] at h
  rw [toUpperCase_of_ascii (boundary_ascii units)]
  exact List.append_cancel_left h

theorem isBegin_of_spells (h : SpellsBoundary "BEGIN:" line name) (regular : isStray host line = false) :
    IsBegin host line name := by
  have start : startsWith (line.map asciiUpper) (js "BEGIN" ++ [58]) = true := by
    rw [h]
    exact List.isPrefixOf_iff_prefix.mpr (List.prefix_append _ _)
  have other : startsWith (line.map asciiUpper) (js "END:") = false := by
    rw [h]
    rfl
  cases matched : matchBoundary (js "BEGIN:") line with
  | some text => exact ⟨text, matched, named_of_spells (by decide) h matched⟩
  | none =>
    have stray : isStray host line = true :=
      isStray_of_startsWith (show isBoundaryName (js "BEGIN") = true from rfl) start matched
        (matchBoundary_none (by decide) other)
    rw [regular] at stray
    cases stray

theorem isEnd_of_spells (h : SpellsBoundary "END:" line name) (regular : isStray host line = false) :
    IsEnd host line name := by
  have start : startsWith (line.map asciiUpper) (js "END" ++ [58]) = true := by
    rw [h]
    exact List.isPrefixOf_iff_prefix.mpr (List.prefix_append _ _)
  have other : startsWith (line.map asciiUpper) (js "BEGIN:") = false := by
    rw [h]
    rfl
  have opened := matchBoundary_none (by decide) other
  cases matched : matchBoundary (js "END:") line with
  | some text => exact ⟨opened, text, matched, named_of_spells (by decide) h matched⟩
  | none =>
    have stray : isStray host line = true :=
      isStray_of_startsWith (show isBoundaryName (js "END") = true from rfl) start opened matched
    rw [regular] at stray
    cases stray

theorem isTransition_of_allowed {parent child : ComponentName} (h : allowed parent child = true) :
    isTransition parent.text = false := by
  revert h
  cases parent <;> cases child <;> decide

/-- In a tree whose components stand where they may, none is opened in STANDARD or DAYLIGHT. -/
theorem opensInTransition_of_body {blocks : List Block} {lines : List JsString} (h : Body blocks lines)
    (regular : ∀ line ∈ lines, isStray host line = false) {name : ComponentName} (placed : Placed name blocks)
    (rest : List JsString) :
    opensInTransition host (isTransition name.text) (lines ++ rest) =
      opensInTransition host (isTransition name.text) rest := by
  induction h generalizing name rest with
  | nil => rfl
  | line plain _ ih =>
    rw [List.forall_mem_cons] at regular
    rw [List.cons_append, opensInTransition_property (isProperty_of_plain plain)]
    cases placed with
    | mk here below => exact ih regular.2 (.mk here below) rest
  | @component inner body blocks innerLines lines b e opened _ closed _ ihInner ih =>
    rw [List.forall_mem_cons, List.forall_mem_append, List.forall_mem_cons] at regular
    obtain ⟨hb, hinner, he, hlines⟩ := regular
    cases placed with
    | mk here below =>
      have all : childrenOf (.component inner body :: blocks) = (inner, body) :: childrenOf blocks := rfl
      rw [all, List.forall_mem_cons] at here below
      have outside := isTransition_of_allowed here.1
      rw [List.cons_append, opensInTransition_begin (isBegin_of_spells opened hb), outside, Bool.false_or,
        List.append_assoc, ihInner hinner below.1, List.cons_append, opensInTransition_end (isEnd_of_spells closed he)]
      have tail := ih hlines (.mk here.2 below.2) rest
      rwa [outside] at tail

theorem crlfOnly_cons {u : UInt16} {rest : JsString} (h : u = 13 → rest.head? ≠ some 10) :
    crlfOnly (u :: rest) = (u != 13 && u != 10 && crlfOnly rest) := by
  rw [crlfOnly]
  intro tail cr next
  apply h cr
  rw [next]
  rfl

theorem crlfOnly_line {l : JsString} (h : 10 ∉ l) (rest : JsString) :
    crlfOnly (l ++ 13 :: 10 :: rest) = (!l.contains 13 && crlfOnly rest) := by
  induction l with
  | nil => rfl
  | cons u l ih =>
    simp only [List.mem_cons, not_or] at h
    have next : u = 13 → (l ++ 13 :: 10 :: rest).head? ≠ some 10 := by
      intro _
      cases l with
      | nil =>
        intro same
        cases same
      | cons v l =>
        intro same
        cases same
        exact h.2 List.mem_cons_self
    have other : (u == 10) = false := beq_false_of_ne (Ne.symm h.1)
    rw [List.cons_append, crlfOnly_cons next, ih h.2, List.contains_cons, bne, bne, other, Bool.beq_comm (a := u)]
    cases (13 == u) <;> simp

theorem crlfOnly_lines {lines : List JsString} (h : ∀ l ∈ lines, 10 ∉ l) :
    crlfOnly (lines.flatMap (· ++ crlf)) = true ↔ ∀ l ∈ lines, 13 ∉ l := by
  induction lines with
  | nil => simp [crlfOnly]
  | cons l lines ih =>
    rw [List.forall_mem_cons] at h
    rw [List.flatMap_cons, crlf, List.append_assoc, List.cons_append, List.cons_append, List.nil_append,
      crlfOnly_line h.1, List.forall_mem_cons, Bool.and_eq_true, ← crlf, ih h.2]
    simp

theorem hasBareCr_iff (text : JsString) : hasBareCr text = true ↔ 13 ∈ replaceAll text crlf lf := by
  unfold replaceAll
  fun_induction hasBareCr text with
  | case1 => simp [replaceFrom]
  | case2 rest ih =>
    have same : replaceFrom crlf lf 0 (13 :: 10 :: rest) = 10 :: replaceFrom crlf lf 0 rest := rfl
    rw [same, ih, List.mem_cons]
    simp
  | case3 u rest other ih =>
    have passed : startsWith (u :: rest) crlf = false := by
      rw [Bool.eq_false_iff, ne_eq, startsWith, List.isPrefixOf_iff_prefix]
      rintro ⟨tail, same⟩
      obtain ⟨rfl, rfl⟩ := List.cons.inj same
      exact other tail rfl rfl
    rw [replaceFrom, passed, Bool.or_eq_true, ih, beq_iff_eq]
    simp only [Bool.false_eq_true, ↓reduceIte, List.mem_cons]
    rw [eq_comm (a := u)]

/-- Unfolding drops no unit but the blank that starts a continuation. -/
theorem mem_foldlM_unfoldLine {ε : Type} {err : ε} {lines unfolded unfolded' : List JsString}
    (h : lines.foldlM (unfoldLine err) unfolded = .ok unfolded') {u : UInt16} (hu : u ≠ 32 ∧ u ≠ 9)
    (mem : ∃ l, (l ∈ lines ∨ l ∈ unfolded) ∧ u ∈ l) : ∃ l ∈ unfolded', u ∈ l := by
  induction lines generalizing unfolded with
  | nil =>
    cases h
    obtain ⟨l, hl | hl, hm⟩ := mem
    · cases hl
    · exact ⟨l, hl, hm⟩
  | cons line lines ih =>
    rw [List.foldlM_cons, bind_eq_ok] at h
    obtain ⟨mid, first, rest⟩ := h
    apply ih rest
    have kept : (∃ l ∈ line :: unfolded, u ∈ l) → ∃ l ∈ mid, u ∈ l := by
      rintro ⟨l, hl, hm⟩
      unfold unfoldLine at first
      split at first
      · rename_i blank
        cases unfolded with
        | nil => cases first
        | cons last before =>
          cases first
          rcases List.mem_cons.mp hl with rfl | hl
          · refine ⟨last ++ l.drop 1, List.mem_cons_self, List.mem_append_right _ ?_⟩
            cases l with
            | nil => cases hm
            | cons v l =>
              rcases List.mem_cons.mp hm with rfl | hm
              · simp [startsWithBlank, hu] at blank
              · exact hm
          · rcases List.mem_cons.mp hl with rfl | hl
            · exact ⟨_, List.mem_cons_self, List.mem_append_left _ hm⟩
            · exact ⟨l, List.mem_cons_of_mem _ hl, hm⟩
      · cases first
        exact ⟨l, hl, hm⟩
    obtain ⟨l, hl | hl, hm⟩ := mem
    · rcases List.mem_cons.mp hl with rfl | hl
      · obtain ⟨m, hm', hu'⟩ := kept ⟨l, List.mem_cons_self, hm⟩
        exact ⟨m, .inr hm', hu'⟩
      · exact ⟨l, .inl hl, hm⟩
    · obtain ⟨m, hm', hu'⟩ := kept ⟨l, List.mem_cons_of_mem _ hl, hm⟩
      exact ⟨m, .inr hm', hu'⟩

end

theorem bareCr_lines {ε : Type} {err : ε} {text : JsString} {lines : List JsString}
    (h : unfoldLines err (splitLines (replaceAll text crlf lf)) = .ok lines) :
    hasBareCr text = false ↔ ∀ l ∈ lines, 13 ∉ l := by
  rw [Bool.eq_false_iff, ne_eq, hasBareCr_iff]
  constructor
  · intro none l hl inside
    obtain ⟨m, hm, hum⟩ := (unfoldLines_spec h).2.2 l hl 13 inside
    exact none (mem_of_mem_split (mem_split_of_mem_splitLines hm) hum)
  · intro none inside
    obtain ⟨raw, hraw, hu⟩ := mem_split_of_mem inside (by decide : (13 : UInt16) ≠ 10)
    have kept : raw ∈ splitLines (replaceAll text crlf lf) := by
      unfold splitLines
      dsimp only
      split
      · rename_i last
        rw [beq_iff_eq] at last
        rw [← List.dropLast_append_getLast? [] last] at hraw
        rcases List.mem_append.mp hraw with hraw | hraw
        · exact hraw
        · rw [List.mem_singleton.mp hraw] at hu
          cases hu
      · exact hraw
    simp only [unfoldLines, bind_eq_ok, pure, Except.pure, Except.ok.injEq] at h
    obtain ⟨rev, folded, rfl⟩ := h
    obtain ⟨l, hl, hu⟩ := mem_foldlM_unfoldLine folded (by decide) ⟨raw, .inl kept, hu⟩
    exact none l (List.mem_reverse.mpr hl) hu

theorem calendarMetadata_event {host : Host} {root : ICalendarComponent} {metadata : ICalendarMetadata}
    (h : calendarMetadata host root = .ok metadata) :
    (root.children.filter fun component => component.name == .vevent).length = 1 := by
  obtain ⟨_, _, h⟩ := bind_eq_ok.mp h
  obtain ⟨_, _, h⟩ := bind_eq_ok.mp h
  obtain ⟨_, _, h⟩ := bind_eq_ok.mp h
  split at h
  · rename_i event only
    rw [only]
    rfl
  · cases h

theorem unfoldLines_linesOf {text : JsString} (h : linesOf text ≠ []) :
    unfoldLines () (splitLines (replaceAll text crlf lf)) = .ok (linesOf text) := by
  unfold linesOf logicalLines at h ⊢
  cases unfolded : unfoldLines () (splitLines (replaceAll text crlf lf)) with
  | ok lines => rfl
  | error =>
    rw [unfolded] at h
    exact absurd rfl h

theorem boundaries_of_whole {host : Host} {root : ICalendarComponent} {lines : List JsString}
    (h : Whole host root lines) :
    (∀ line ∈ lines, isStray host line = false) ↔ root.Forall fun p => isBoundaryName p.name = false := by
  obtain ⟨b, inner, e, rfl, ⟨_, opened, _⟩, ⟨_, _, closed, _⟩, content⟩ := h.shape
  have opening : isStray host b = false := by simp [isStray, opened]
  have closing : isStray host e = false := by simp [isStray, closed]
  rw [← boundaries_of_content content, List.forall_mem_append, List.forall_mem_cons, List.forall_mem_singleton]
  simp [opening, closing]

/-- The events of the tree are the events the validator counts. -/
theorem events_length {body : List Block} {children : List ICalendarComponent}
    (same : (childrenOf body).map Prod.fst = children.map (·.name)) :
    ((childrenOf body).filter fun c => c.1 = .vevent).length =
      (children.filter fun component => component.name == .vevent).length := by
  have names := congrArg (fun names => (names.filter fun name => name = ComponentName.vevent).length) same
  simpa [List.filter_map, Function.comp_def, Bool.beq_eq_decide_eq] using names

/-- An accepted text is what its grammar says just when each BEGIN and END is
written as a boundary in upper case, no component is opened in a STANDARD or
DAYLIGHT, and each CR is followed by LF. -/
theorem validateICalendar_conforms_iff {host : Host} {text : JsString} {r : ValidatedICalendar}
    (h : validateICalendar host (.string text) = .ok r) :
    Conforms host text r.canonicalText ↔ Regular host text := by
  obtain ⟨lines, root, plain, same, parsed, metadata, canonical⟩ := validateICalendar_eq_ok h
  obtain rfl : lines = linesOf text := same
  have whole := parseLines_content parsed
  obtain ⟨b, inner, e, shape, opened, closed, content⟩ := whole.shape
  have unfolded := unfoldLines_linesOf plain.nonempty
  have endings : crlfOnly r.canonicalText = true ↔ hasBareCr text = false := by
    rw [canonical, crlfOnly_lines plain.noLf, bareCr_lines unfolded]
  have strays := boundaries_of_whole whole
  constructor
  · rintro ⟨⟨body, written, placed, _⟩, ⟨root', parsed', names⟩, ends⟩
    rw [parsed] at parsed'
    cases parsed'
    have regular := strays.mpr names
    refine ⟨regular, ?_, endings.mp ends⟩
    generalize linesOf text = lines at written regular
    cases written with
    | component spelled inside ended rest =>
      cases rest
      rw [List.forall_mem_cons, List.forall_mem_append, List.forall_mem_singleton] at regular
      rw [opensInTransition_begin (isBegin_of_spells spelled regular.1), Bool.false_or,
        opensInTransition_of_body inside regular.2.1 placed, opensInTransition_end (isEnd_of_spells ended regular.2.2)]
      rfl
  · rintro ⟨regular, scan, bare⟩
    refine ⟨?_, ⟨root, parsed, strays.mp regular⟩, endings.mpr bare⟩
    rw [shape] at scan regular
    rw [List.forall_mem_append, List.forall_mem_cons] at regular
    rw [List.cons_append, opensInTransition_begin opened, Bool.false_or] at scan
    have name := whole.name
    obtain ⟨_, body, written, children, placed⟩ :=
      content_conforms content regular.1.2 (by rw [name]; exact scan)
    rw [name] at placed
    refine ⟨body, ?_, placed, ?_⟩
    · rw [shape]
      exact .component opened.spells written closed.spells .nil
    · rw [events_length children]
      exact calendarMetadata_event metadata

theorem sampleEvent_conforms :
    ∃ r, validateICalendar asciiHost (.string (sampleEvent (js "SUMMARY:a"))) = .ok r ∧
      (Conforms asciiHost (sampleEvent (js "SUMMARY:a")) r.canonicalText ↔
        Regular asciiHost (sampleEvent (js "SUMMARY:a"))) := by
  obtain ⟨r, accepted⟩ := eq_ok_of_toBool
    (x := validateICalendar asciiHost (.string (sampleEvent (js "SUMMARY:a")))) (by decide +kernel)
  exact ⟨r, accepted, validateICalendar_conforms_iff accepted⟩

/-- An alarm that is opened in lower case and never closed is accepted, as a
property with the name BEGIN. -/
theorem lowerCaseAlarm_not_conforms :
    ¬ ∀ (host : Host) (text : JsString) (r : ValidatedICalendar),
      validateICalendar host (.string text) = .ok r → Conforms host text r.canonicalText := by
  intro h
  obtain ⟨r, accepted⟩ := eq_ok_of_toBool
    (x := validateICalendar asciiHost (.string (sampleEvent (js "begin:valarm")))) (by decide +kernel)
  obtain ⟨root, parsed, names⟩ := (h asciiHost _ r accepted).names
  have stray := (boundaries_of_whole (parseLines_content parsed)).mpr names (js "begin:valarm") (by decide +kernel)
  exact absurd stray (by decide +kernel)

end GuloGulo.CalDav
