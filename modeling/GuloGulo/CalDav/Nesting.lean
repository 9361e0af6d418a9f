import GuloGulo.CalDav.PropertyLines

/-!
# What the component parser reads

The stack machine of `parseCalendarComponents`, as the derivations it finds:

* `Content`: the lines between the two boundaries of a component, with the
  component the parser makes of them;
* `Frames`: the open components, each with the lines read since it was opened;
* `parseLines_content`: a text is accepted only with one VCALENDAR, opened by
  its first line and closed by its last.
-/

namespace GuloGulo.CalDav
open Js Data

section
variable (host : Host)

def IsBegin (line : JsString) (name : ComponentName) : Prop :=
  ∃ text, matchBoundary (js "BEGIN:") line = some text ∧ host.toUpperCase text = name.text

def IsEnd (line : JsString) (name : ComponentName) : Prop :=
  matchBoundary (js "BEGIN:") line = none ∧
    ∃ text, matchBoundary (js "END:") line = some text ∧ host.toUpperCase text = name.text

/-- A line the parser takes for a property. -/
def IsProperty (line : JsString) : Prop :=
  matchBoundary (js "BEGIN:") line = none ∧ matchBoundary (js "END:") line = none

/-- What a component has read since the line that opened it. -/
inductive Content : ICalendarComponent → List JsString → Prop where
  | opened (name : ComponentName) : Content (.mk name [] []) []
  | property {c : ICalendarComponent} {lines : List JsString} {line : JsString} {p : ICalendarProperty} :
      Content c lines → IsProperty line → parseProperty host line = .ok p →
      Content (c.addProperty p) (lines ++ [line])
  | child {c d : ICalendarComponent} {lines inner : List JsString} {b e : JsString} :
      Content c lines → assertChild c.name d.name = .ok () → IsBegin host b d.name → Content d inner →
      IsEnd host e d.name → Content (c.addChild d) (lines ++ (b :: inner ++ [e]))

/-- The open components, the innermost first, and the lines that opened and
filled them. -/
inductive Frames : List ICalendarComponent → List JsString → Prop where
  | root {c : ICalendarComponent} {b : JsString} {lines : List JsString} :
      c.name = .vcalendar → IsBegin host b c.name → Content host c lines → Frames [c] (b :: lines)
  | push {parent c : ICalendarComponent} {rest : List ICalendarComponent} {before lines : List JsString}
      {b : JsString} :
      Frames (parent :: rest) before → assertChild parent.name c.name = .ok () → IsBegin host b c.name →
      Content host c lines → Frames (c :: parent :: rest) (before ++ b :: lines)

/-- The whole text: one VCALENDAR between its boundaries. -/
structure Whole (root : ICalendarComponent) (lines : List JsString) : Prop where
  name : root.name = .vcalendar
  shape : ∃ b inner e, lines = b :: inner ++ [e] ∧ IsBegin host b .vcalendar ∧ IsEnd host e .vcalendar ∧
    Content host root inner

inductive Consumes : ComponentParser → List JsString → Prop where
  | start (count : Nat) : Consumes ⟨[], count, none⟩ []
  | inside {stack : List ICalendarComponent} {lines : List JsString} (count : Nat) :
      Frames host stack lines → Consumes ⟨stack, count, none⟩ lines
  | closed {root : ICalendarComponent} {lines : List JsString} (count : Nat) :
      Whole host root lines → Consumes ⟨[], count, some root⟩ lines

end

section
variable {host : Host} {p q : ComponentParser} {lines : List JsString} {line text : JsString}

@[simp] theorem name_addProperty (c : ICalendarComponent) (property : ICalendarProperty) :
    (c.addProperty property).name = c.name := rfl

@[simp] theorem name_addChild (c child : ICalendarComponent) : (c.addChild child).name = c.name := rfl

/-- Lines read by the innermost component leave the others as they are. -/
theorem Frames.extend {c c' : ICalendarComponent} {rest : List ICalendarComponent} {more : List JsString}
    (h : Frames host (c :: rest) lines) (same : c'.name = c.name)
    (grow : ∀ own, Content host c own → Content host c' (own ++ more)) :
    Frames host (c' :: rest) (lines ++ more) := by
  cases h with
  | @root _ b own name opened content =>
    have grown := grow own content
    exact Frames.root (same.trans name) (same ▸ opened) grown
  | @push parent _ rest before own b frames placed opened content =>
    rw [List.append_assoc, List.cons_append]
    exact Frames.push frames (same ▸ placed) (same ▸ opened) (grow own content)

theorem text_of_ofText? {name : ComponentName} (h : ComponentName.ofText? text = some name) : name.text = text := by
  have found := List.find?_some h
  exact eq_of_beq found

theorem parse_begin (h : matchBoundary (js "BEGIN:") line = some text) (reads : Consumes host p lines)
    (ok : beginComponent p (host.toUpperCase text) = .ok q) : Consumes host q (lines ++ [line]) := by
  unfold beginComponent at ok
  split at ok
  · cases ok
  · rename_i name known
    obtain ⟨_, _, ok⟩ := bind_eq_ok.mp ok
    obtain ⟨_, _, ok⟩ := bind_eq_ok.mp ok
    have opens : IsBegin host line name := ⟨text, h, (text_of_ofText? known).symm⟩
    cases reads with
    | start count =>
      obtain ⟨_, sole, ok⟩ := bind_eq_ok.mp ok
      cases ok
      have root : name = .vcalendar := by simpa [throwIf_eq_ok] using sole
      exact Consumes.inside _ (Frames.root root opens (Content.opened name))
    | @inside stack _ count frames =>
      cases stack with
      | nil => cases frames
      | cons parent rest =>
        obtain ⟨_, placed, ok⟩ := bind_eq_ok.mp ok
        cases ok
        exact Consumes.inside _ (Frames.push frames placed opens (Content.opened name))
    | closed count whole =>
      obtain ⟨_, sole, ok⟩ := bind_eq_ok.mp ok
      simp at sole

theorem parse_end (hb : matchBoundary (js "BEGIN:") line = none)
    (h : matchBoundary (js "END:") line = some text) (reads : Consumes host p lines)
    (ok : endComponent p (host.toUpperCase text) = .ok q) : Consumes host q (lines ++ [line]) := by
  unfold endComponent at ok
  cases reads with
  | start count => cases ok
  | closed count whole => cases ok
  | @inside stack _ count frames =>
    cases stack with
    | nil => cases frames
    | cons current enclosing =>
      obtain ⟨_, matching, ok⟩ := bind_eq_ok.mp ok
      have closes : IsEnd host line current.name := by
        refine ⟨hb, text, h, ?_⟩
        have same : current.name.text = host.toUpperCase text := by simpa [throwIf_eq_ok] using matching
        exact same.symm
      cases frames with
      | root name opened content =>
        cases ok
        rw [name] at opened closes
        exact Consumes.closed _ ⟨name, _, _, _, rfl, opened, closes, content⟩
      | @push parent _ rest before own b frames placed opened content =>
        cases ok
        have same : (parent.addChild current).name = parent.name := rfl
        have grown := frames.extend same fun _ mine => Content.child mine placed opened content closes
        rw [List.append_assoc]
        exact Consumes.inside _ grown

theorem parse_property (h : IsProperty line) (reads : Consumes host p lines)
    (ok : propertyLine host p line = .ok q) : Consumes host q (lines ++ [line]) := by
  unfold propertyLine at ok
  cases reads with
  | start count => cases ok
  | closed count whole => cases ok
  | @inside stack _ count frames =>
    cases stack with
    | nil => cases frames
    | cons current enclosing =>
      obtain ⟨property, parsed, ok⟩ := bind_eq_ok.mp ok
      cases ok
      exact Consumes.inside _ (frames.extend rfl fun _ mine => Content.property mine h parsed)

theorem parseLine_reads (reads : Consumes host p lines) (ok : parseLine host p line = .ok q) :
    Consumes host q (lines ++ [line]) := by
  unfold parseLine at ok
  split at ok
  · rename_i text h
    exact parse_begin h reads ok
  · rename_i text hb h
    exact parse_end hb h reads ok
  · rename_i hb he
    exact parse_property ⟨hb, he⟩ reads ok

theorem foldlM_parseLine_reads {more : List JsString} (reads : Consumes host p lines)
    (ok : more.foldlM (parseLine host) p = .ok q) : Consumes host q (lines ++ more) := by
  induction more generalizing p lines with
  | nil =>
    cases ok
    simpa using reads
  | cons line more ih =>
    rw [List.foldlM_cons, bind_eq_ok] at ok
    obtain ⟨mid, first, rest⟩ := ok
    have := ih (parseLine_reads reads first) rest
    rwa [List.append_assoc] at this

/-- A text the parser accepts is one VCALENDAR between its boundaries. -/
theorem parseLines_content {root : ICalendarComponent} (h : parseLines host lines = .ok root) :
    Whole host root lines := by
  obtain ⟨p, folded, h⟩ := bind_eq_ok.mp h
  have reads := foldlM_parseLine_reads (Consumes.start 0) folded
  rw [List.nil_append] at reads
  split at h
  · rename_i found stack
    obtain ⟨_, _, h⟩ := bind_eq_ok.mp h
    cases h
    cases reads with
    | start => cases found
    | inside => cases found
    | closed count whole =>
      cases found
      exact whole
  · cases h

end

end GuloGulo.CalDav
